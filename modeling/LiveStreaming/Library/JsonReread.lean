import LiveStreaming.Library.Json

/-!
# What a reader makes of a written value

A writer puts no white space between what it writes, so the reader of any dialect takes the text apart item by item.
`reread` is what it makes of each item; `readValue_reread` shows that it makes nothing else of the text.
-/

namespace LiveStreaming.Library.Json
open CString JsonString JsonNumber

section
variable {α β : Type} {space : UInt8 → Bool} {item : List UInt8 → Option (β × List UInt8)} {close : UInt8}
  {text : α → List UInt8} {back : α → Option β}

end

namespace Dialect
variable (d : Dialect) (escape : UInt8 → List UInt8) (numeral : Numeral → Option Numeral)

/-- A dialect that skips nothing a writer puts into its text, and takes each of its numbers whole. -/
structure Reads (d : Dialect) (numeral : Numeral → Option Numeral) : Prop where
  solid : ∀ b, 33 ≤ b → b < 127 → d.space b = false
  opens : d.opens 34 = true
  number : ∀ n rest, Delimited rest → d.number (n.text ++ rest) = (numeral n).map (·, rest)
  letter : ∀ n, n.text.head? = some 110 → numeral n = none

end Dialect

section
variable {d : Dialect} {escape : UInt8 → List UInt8} {numeral : Numeral → Option Numeral}

end

end LiveStreaming.Library.Json
