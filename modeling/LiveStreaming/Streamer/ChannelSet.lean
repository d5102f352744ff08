import LiveStreaming.Streamer.Parson
import Mathlib.Data.Finset.Max

/-!
# Arrays put together by hand

`send_system_info_cb` puts names between quotes, with nothing escaped, and gives the text to parson. What parson
reads from it holds every name only if no name has anything to escape: what reads as a name with a backslash is longer
than that name, and part of another name.
-/

namespace LiveStreaming.Streamer
open Library Library.CString Library.Json Library.JsonString Library.JsonNumber

/-- The text of the entries, each with a comma behind it, and of an empty string. -/
def listText (entries : List (List UInt8)) : List UInt8 :=
  91 :: (entries.flatMap (fun e => 34 :: (e ++ [34, 44])) ++ [34, 34, 93])

/-- Nothing in the string is to be escaped. -/
structure Clean (s : List UInt8) : Prop where
  no_quote : 34 ∉ s
  no_backslash : 92 ∉ s
  printable : ∀ b ∈ s, 32 ≤ b

theorem Clean.zero_notMem {s : List UInt8} (clean : Clean s) : 0 ∉ s :=
  fun member => absurd (clean.printable 0 member) (by decide)

theorem Clean.serializeChar {s : List UInt8} (clean : Clean s) {c : UInt8} (member : c ∈ s) :
    serializeChar c = [c] := by
  have above : ∀ control : UInt8, control < 32 → c ≠ control := by
    rintro control below rfl
    exact absurd (clean.printable c member) (UInt8.not_le.mpr below)
  have quote : c ≠ 34 := by
    rintro rfl
    exact clean.no_quote member
  have backslash : c ≠ 92 := by
    rintro rfl
    exact clean.no_backslash member
  rw [Streamer.serializeChar, if_neg quote, if_neg backslash,
    if_neg (above 8 (by decide)), if_neg (above 12 (by decide)),
    if_neg (above 10 (by decide)), if_neg (above 13 (by decide)), if_neg (above 9 (by decide))]

theorem Clean.flatMap {s : List UInt8} (clean : Clean s) : s.flatMap Streamer.serializeChar = s := by
  rw [List.flatMap_congr fun c member => clean.serializeChar member, List.flatMap_singleton']

theorem Clean.unescape {s : List UInt8} (clean : Clean s) : unescape s = some s := by
  have read := (escapes_serializeChar.unescape (s := s)).mpr ⟨rfl, fun c member _ => clean.printable c member⟩
  rwa [clean.flatMap] at read

theorem clean_nil : Clean [] := ⟨by simp, by simp, by simp⟩

theorem listText_body (entries : List (List UInt8)) : entries.flatMap (fun e => 34 :: (e ++ [34, 44])) ++ [34, 34, 93] =
    [44].intercalate ((entries ++ [[]]).map fun e => 34 :: (e ++ [34])) ++ [93] := by
  induction entries with
  | nil => rfl
  | cons e entries ih =>
    have split : e :: entries ++ [[]] = e :: (entries ++ [[]]) := rfl
    rw [List.flatMap_cons, List.append_assoc, ih, split, List.map_cons, List.intercalate_cons_of_ne_nil (by simp)]
    simp

section
variable {strtod : List UInt8 → Double × Nat}

theorem jsonParseString_bracket {text : List UInt8} (unterminated : 0 ∉ text) :
    jsonParseString strtod (91 :: text) =
      (enclosed isspace ((parson strtod).readValue maxNesting) 93 text).bind fun items =>
        if items.1.length ≤ arrayMaxCapacity then some (.array items.1) else none := by
  have whole : cString (91 :: text) = 91 :: text := by
    apply cString_eq
    simpa using unterminated
  have solid : (91 :: text).dropWhile isspace = 91 :: text := List.dropWhile_cons_of_neg (by decide)
  have array : ((parson strtod).readValue (maxNesting + 1) (91 :: text)) =
      (enclosed isspace ((parson strtod).readValue maxNesting) 93 text).bind fun items =>
        if items.1.length ≤ arrayMaxCapacity then some (.array items.1, items.2) else none := by
    rw [Dialect.readValue, show (parson strtod).space = isspace from rfl, solid]
    simp only [Dialect.valueFrom, parson, decide_eq_true_eq]
    rw [if_neg (by decide), if_true]
  rw [jsonParseString, whole]
  simp only [solid, List.head?_cons, or_true, if_true, array, Option.map_bind, Function.comp_def]
  congr 1
  funext items
  split <;> rfl

theorem zero_notMem_list {entries : List (List UInt8)} (unterminated : ∀ e ∈ entries, 0 ∉ e) :
    0 ∉ entries.flatMap (fun e => 34 :: (e ++ [34, 44])) ++ [34, 34, 93] := by
  intro member
  rw [List.mem_append, List.mem_flatMap] at member
  rcases member with ⟨e, inside, member⟩ | member
  · have quoted : 0 ∈ e := by simpa using member
    exact unterminated e inside quoted
  · simp at member

/-- parson reads the entries as they are where nothing in them is to be escaped. -/
theorem jsonParseString_clean {entries : List (List UInt8)} (clean : ∀ e ∈ entries, Clean e) :
    jsonParseString strtod (listText entries) =
      if entries.length < arrayMaxCapacity then some (.array ((entries ++ [[]]).map .string)) else none := by
  have clean' : ∀ e ∈ entries ++ [[]], Clean e := by
    intro e member
    rw [List.mem_append, List.mem_singleton] at member
    rcases member with member | rfl
    · exact clean e member
    · exact clean_nil
  have text : ((entries ++ [[]]).map fun e => 34 :: (e ++ [34])) =
      ((entries ++ [[]]).map Json.string).map (write serializeChar) := by
    rw [List.map_map]
    apply List.map_congr_left
    intro e member
    rw [Function.comp_apply, write, Json.quoted, (clean' e member).flatMap]
  have reads : ∀ v ∈ (entries ++ [[]]).map Json.string, ∀ rest r, Delimited rest →
      ((parson strtod).readValue maxNesting (write serializeChar v ++ rest) = some r ↔ True ∧ r = (v, rest)) := by
    intro v member rest r _
    obtain ⟨e, inside, rfl⟩ := List.mem_map.mp member
    have here := clean' e inside
    have split : untilQuote (e ++ 34 :: rest) = some (e, rest) := by
      have body := escapes_serializeChar.body e
      rw [here.flatMap] at body
      exact untilQuote_eq_some.mpr ⟨body, rfl⟩
    have string : (parson strtod).string e = some e := by
      simp only [parson, here.unescape, Option.map_some, cString_eq here.zero_notMem]
    have solid : (34 :: (e ++ 34 :: rest)).dropWhile (parson strtod).space = 34 :: (e ++ 34 :: rest) :=
      List.dropWhile_cons_of_neg (show ¬ isspace 34 = true by decide)
    have read : (parson strtod).readValue maxNesting (write serializeChar (.string e) ++ rest) =
        some (.string e, rest) := by
      rw [write, Json.quoted, here.flatMap, List.cons_append, List.append_assoc, List.singleton_append, maxNesting,
        Dialect.readValue, solid]
      simp only [Dialect.valueFrom]
      rw [if_neg (by decide), if_neg (by decide), if_true, Dialect.readString, split]
      simp [string]
    rw [read, Option.some.injEq, true_and]
    exact eq_comm
  have heads : ∀ v ∈ (entries ++ [[]]).map Json.string, ∃ b t, write serializeChar v = b :: t ∧
    isspace b = false ∧ b ≠ 93 := by
    intro v member
    obtain ⟨e, _, rfl⟩ := List.mem_map.mp member
    exact ⟨34, _, by rw [write, Json.quoted], by decide, by decide⟩
  have read := (@enclosed_eq_some _ isspace ((parson strtod).readValue maxNesting) 93
    (write serializeChar) (fun _ => True)
    (by decide) (by decide) (.inl rfl) ((entries ++ [[]]).map Json.string) reads heads []
    ((entries ++ [[]]).map Json.string, [])).mpr ⟨fun _ _ => trivial, rfl⟩
  rw [listText, jsonParseString_bracket (zero_notMem_list fun e member => (clean e member).zero_notMem),
    listText_body, text, read, Option.bind_some]
  simp only [List.length_map, List.length_append, List.length_singleton, Nat.succ_le_iff]

theorem parseNumberValue_suffix {s : List UInt8} {n : Numeral × List UInt8}
    (read : parseNumberValue strtod s = some n) :
    n.2 <:+ s := by
  unfold parseNumberValue at read
  split at read
  · dsimp only at read
    split at read
    · obtain rfl := Option.some.inj read
      exact List.drop_suffix _ _
    · simp at read
  · simp at read

/-- A string that begins between the entries ends before the next quote that is not part of an entry. -/
theorem body_within {entries : List (List UInt8)} {t body rest : List UInt8}
    (inside : 34 :: t <:+ entries.flatMap (fun e => 34 :: (e ++ [34, 44])) ++ [34, 34, 93])
    (found : untilQuote t = some (body, rest)) : body = [] ∨ ∃ e ∈ entries, body <:+: e ++ [34, 44] := by
  obtain ⟨proper, text⟩ := untilQuote_eq_some.mp found
  induction entries with
  | nil =>
    rw [List.flatMap_nil, List.nil_append] at inside
    simp only [List.suffix_cons_iff, List.suffix_nil, List.cons.injEq, true_and, reduceCtorEq, or_false] at inside
    rcases inside with rfl | rfl | ⟨other, _⟩
    · left
      exact (Prod.mk.inj (Option.some.inj found)).1.symm
    · simp [untilQuote] at found
    · exact absurd other (by decide)
  | cons e entries ih =>
    have later : 34 :: t <:+ entries.flatMap (fun e => 34 :: (e ++ [34, 44])) ++ [34, 34, 93] →
        body = [] ∨ ∃ e' ∈ e :: entries, body <:+: e' ++ [34, 44] := by
      intro inside
      apply (ih inside).imp_right
      rintro ⟨e', member, within⟩
      exact ⟨e', List.mem_cons_of_mem e member, within⟩
    obtain ⟨before, whole⟩ := inside
    rw [List.flatMap_cons, List.append_assoc, List.append_eq_append_iff] at whole
    rcases whole with ⟨w, here, tail⟩ | ⟨c, _, there⟩
    · rcases w with _ | ⟨b, w⟩
      · exact later ⟨[], tail⟩
      · obtain rfl : 34 = b := List.head_eq_of_cons_eq tail
        obtain ⟨next, quote⟩ : ∃ next, entries.flatMap (fun e => 34 :: (e ++ [34, 44])) ++ [34, 34, 93] =
          34 :: next := by
          cases entries with
          | nil => exact ⟨_, rfl⟩
          | cons e' entries => exact ⟨_, by rw [List.flatMap_cons, List.cons_append, List.cons_append]⟩
        have last : w.getLast? ≠ some 92 := by
          intro backslash
          have ends := congrArg List.getLast? here
          simp [List.getLast?_append, List.getLast?_cons, backslash] at ends
        rw [quote, List.cons_append] at tail
        have joined := (List.cons_eq_cons.mp tail).2
        have start : body <+: w := proper.within last (text.symm.trans joined)
        have part : w <:+ e ++ [34, 44] := by
          cases before with
          | nil =>
            obtain ⟨_, same⟩ := List.cons_eq_cons.mp here
            rw [same]
          | cons c before =>
            obtain ⟨_, same⟩ := List.cons_eq_cons.mp here
            rw [same]
            exact (List.suffix_cons 34 w).trans (List.suffix_append before _)
        exact .inr ⟨e, List.mem_cons_self, start.isInfix.trans part.isInfix⟩
    · exact later ⟨c, there.symm⟩

/-- What parson reads as a string stands for something within an entry. -/
theorem jsonParseString_string {entries : List (List UInt8)} (unterminated : ∀ e ∈ entries, 0 ∉ e) {v : Json}
    (read : jsonParseString strtod (listText entries) = some v) :
    ∃ items, v = .array items ∧ items.length ≤ arrayMaxCapacity ∧ ∀ s, .string s ∈ items → ∃ body,
      Body body ∧ (unescape body).map cString = some s ∧ (body = [] ∨ ∃ e ∈ entries, body <:+: e ++ [34, 44]) := by
  rw [listText, jsonParseString_bracket (zero_notMem_list unterminated)] at read
  obtain ⟨⟨items, rest⟩, enclosed, read⟩ := Option.bind_eq_some_iff.mp read
  split at read
  · next few =>
    obtain rfl := Option.some.inj read
    have numbers : ∀ s n, (parson strtod).number s = some n → n.2 <:+ s := fun _ _ => parseNumberValue_suffix
    obtain ⟨_, found⟩ := enclosed_items (fun _ _ read => (Dialect.readValue_suffix numbers read).1) enclosed
    refine ⟨items, rfl, few, ?_⟩
    intro s member
    obtain ⟨t, u, inside, value⟩ := found _ member
    obtain ⟨t', within, string⟩ := (Dialect.readValue_suffix numbers value).2 s rfl
    obtain ⟨⟨body, behind⟩, split, string⟩ := Option.bind_eq_some_iff.mp string
    obtain ⟨s', meaning, same⟩ := Option.map_eq_some_iff.mp string
    obtain ⟨rfl, _⟩ := Prod.mk.inj same
    exact ⟨body, (untilQuote_eq_some.mp split).1, meaning, body_within (within.trans inside) split⟩
  · simp at read

theorem weight_infix {s t : List UInt8} (inside : s <:+: t) : weight s ≤ weight t := by
  obtain ⟨before, behind, rfl⟩ := inside
  rw [weight_append, weight_append]
  omega

/-- Where every entry is read as a string, nothing in an entry is to be escaped: a backslash in what is read needs
two of them in an entry that is longer. -/
theorem clean_of_strings {entries : List (List UInt8)} (unterminated : ∀ e ∈ entries, 0 ∉ e) {items : List Json}
    (read : jsonParseString strtod (listText entries) = some (.array items)) (all : ∀ e ∈ entries, .string e ∈ items) :
    ∀ e ∈ entries, Clean e := by
  obtain ⟨items', same, _, strings⟩ := jsonParseString_string unterminated read
  obtain rfl := Json.array.inj same
  have longer : ∀ e ∈ entries, 92 ∈ e → ∃ e' ∈ entries, 92 ∈ e' ∧ weight e < weight e' := by
    intro e member backslash
    obtain ⟨body, _, meaning, within⟩ := strings e (all e member)
    obtain ⟨u, read, rfl⟩ := Option.map_eq_some_iff.mp meaning
    have resolved := unescape_weight read
    have cut : weight (cString u) ≤ weight u := weight_infix (List.takeWhile_prefix _).isInfix
    have kept : 92 ∈ u := (List.takeWhile_prefix _).subset backslash
    have counted : 0 < u.count 92 := List.count_pos_iff.mpr kept
    have escape : 92 ∈ body := by
      by_contra none
      obtain ⟨rfl, _⟩ := unescape_verbatim none read
      exact none kept
    rcases within with rfl | ⟨e', member', within⟩
    · simp at escape
    · have shorter := weight_infix within
      have tail : weight [34, 44] = 2 := by decide
      rw [weight_append, tail] at shorter
      refine ⟨e', member', ?_, by omega⟩
      simpa using within.subset escape
  have no_backslash : ∀ e ∈ entries, 92 ∉ e := by
    intro e member backslash
    obtain ⟨e', top, most⟩ := Finset.exists_max_image (entries.toFinset.filter (92 ∈ ·)) weight
      ⟨e, by simpa using ⟨member, backslash⟩⟩
    rw [Finset.mem_filter, List.mem_toFinset] at top
    obtain ⟨e'', member'', backslash'', more⟩ := longer e' top.1 top.2
    have least := most e'' (by simpa using ⟨member'', backslash''⟩)
    omega
  intro e member
  obtain ⟨body, proper, meaning, within⟩ := strings e (all e member)
  obtain ⟨u, read, cut⟩ := Option.map_eq_some_iff.mp meaning
  have plain : 92 ∉ body := by
    rcases within with rfl | ⟨e', member', within⟩
    · simp
    · intro backslash
      have either : 92 ∈ e' := by simpa using within.subset backslash
      exact no_backslash e' member' either
  obtain ⟨rfl, printable⟩ := unescape_verbatim plain read
  have unterminated : 0 ∉ u := fun zero => absurd (printable 0 zero) (by decide)
  rw [cString_eq unterminated] at cut
  subst cut
  exact ⟨proper.quote_notMem plain, plain, printable⟩

end

end LiveStreaming.Streamer
