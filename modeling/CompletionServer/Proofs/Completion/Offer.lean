import CompletionServer.Proofs.Php.Word
import CompletionServer.Proofs.Server.Answers
import CompletionServer.Proofs.Stream.Awaiting

namespace CompletionServer

namespace Php

variable {data : List UInt8} {start stop : Nat} {s : Suggestion}

end Php

namespace Completer

end Completer

end CompletionServer
