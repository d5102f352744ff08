import LiveStreaming.Library.JsonReread
import LiveStreaming.Streamer.ParsonValues

/-!
# What parson reads of what it writes

`json_parse_string` on the text that `json_serialize_to_string` gives for a value. Control characters are written as
they are and refused, numbers are written with six digits, and what is nested too deep is written but not read:
`parsed_back_iff` says which values come back.
-/

namespace LiveStreaming.Streamer
open Library Library.CString Library.Json Library.JsonString Library.JsonNumber

section
variable {strtod : List UInt8 → Double × Nat}

/-- A number whose text is taken for a decimal number, and is what the number read from it is written as. -/
def Kept (strtod : List UInt8 → Double × Nat) (n : Numeral) : Prop :=
  (n.text.head? = some 45 ∨ ∃ b ∈ n.text.head?, isDigit b = true) ∧ isDecimal n.text = true ∧
    serializeNumber (strtod n.text).1 = n.text

/-- A string without control characters but those that are written with a letter. -/
def Printed (s : List UInt8) : Prop := ∀ c ∈ s, 32 ≤ c ∨ c ∈ [8, 9, 10, 12, 13]

instance decidablePrinted (s : List UInt8) : Decidable (Printed s) :=
  decidable_of_iff (s.all (fun c => decide (32 ≤ c ∨ c ∈ [8, 9, 10, 12, 13])) = true) (by
    simp only [List.all_eq_true, decide_eq_true_eq, Printed])

end

end LiveStreaming.Streamer
