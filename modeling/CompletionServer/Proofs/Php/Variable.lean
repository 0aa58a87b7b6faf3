import CompletionServer.Php.Variable
import CompletionServer.Proofs.Php.Word
import CompletionServer.Proofs.Text.Decoding
import CompletionServer.Proofs.Text.Search
import Mathlib.Data.List.Nodup

namespace CompletionServer.Php

namespace Occurrence

variable {data : List UInt8} {o p : Occurrence}

/-- A dollar sign and a label stand there, and the label does not go on. -/
structure StandsIn (data : List UInt8) (o : Occurrence) : Prop where
  name_eq : ∃ label, IsLabel label ∧ o.name = dollar :: label
  isPrefix : o.name <+: data.drop o.start
  maximal : ∀ b, data[o.stop]? = some b → isLabelByte b = false

theorem StandsIn.start_lt_stop (h : o.StandsIn data) : o.start < o.stop := by
  obtain ⟨label, -, hname⟩ := h.name_eq
  rw [stop, hname, List.length_cons]
  omega

end Occurrence

variable {data : List UInt8}

section

variable {t : Text} {place : Nat} {names : List (List UInt8)} {name : List UInt8}

end

end CompletionServer.Php
