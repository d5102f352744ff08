import Mathlib.Algebra.Ring.Nat
import Mathlib.Data.List.Basic

/-!
# FLV files

Behind the header of the file each tag is followed by its size. A tag says how long it is, so that a file can be
taken apart in one way only, also where the size of a tag that is not there stands between the tags.
-/

namespace LiveStreaming.Library.FlvFile

def sizeField (n : Nat) : List UInt8 :=
  [UInt8.ofNat (n >>> 24), UInt8.ofNat (n >>> 16), UInt8.ofNat (n >>> 8), UInt8.ofNat n]

def dataSize (b₁ b₂ b₃ : UInt8) : Nat := b₁.toNat * 65536 + b₂.toNat * 256 + b₃.toNat

/-- Type, size of the data, the seven other bytes of the header and the data. -/
def IsTag (tag : List UInt8) : Prop :=
  ∃ type b₁ b₂ b₃ rest, tag = type :: b₁ :: b₂ :: b₃ :: rest ∧ (type = 8 ∨ type = 9 ∨ type = 18) ∧
    rest.length = 7 + dataSize b₁ b₂ b₃

/-- The top eight bits of a time stand behind its low ones. -/
def tagTime (tag : List UInt8) : Nat :=
  (tag.getD 7 0).toNat * 2 ^ 24 + dataSize (tag.getD 4 0) (tag.getD 5 0) (tag.getD 6 0)

def body (tags : List (List UInt8)) : List UInt8 := tags.flatMap fun tag => tag ++ sizeField tag.length

def header (flags : UInt8) : List UInt8 := [0x46, 0x4C, 0x56, 1, flags, 0, 0, 0, 9]

def WellFormed (file : List UInt8) : Prop :=
  ∃ flags tags, file = header flags ++ sizeField 0 ++ body tags ∧ ∀ tag ∈ tags, IsTag tag

/-- Where the tags of a kind are, in a file with `start` bytes before the first tag. -/
def offsets (kind : List UInt8 → Bool) (start : Nat) : List (List UInt8) → List Nat
  | [] => []
  | tag :: tags => if kind tag then start :: offsets kind (start + (tag.length + 4)) tags
      else offsets kind (start + (tag.length + 4)) tags

/-- A size of zero stands where there is no tag. -/
def Stretch (tag : List UInt8) : Prop := tag = [] ∨ IsTag tag

variable {tag other : List UInt8} {tags others : List (List UInt8)}

@[simp] theorem length_sizeField (n : Nat) : (sizeField n).length = 4 := rfl

@[simp] theorem body_nil : body [] = [] := rfl

theorem body_cons (tag : List UInt8) (tags : List (List UInt8)) :
    body (tag :: tags) = tag ++ (sizeField tag.length ++ body tags) := by
  rw [body, List.flatMap_cons, List.append_assoc]
  rfl

theorem body_append (tags others : List (List UInt8)) : body (tags ++ others) = body tags ++ body others :=
  List.flatMap_append

theorem body_singleton (tag : List UInt8) : body [tag] = tag ++ sizeField tag.length := by
  rw [body_cons, body_nil, List.append_nil]

theorem length_body_cons (tag : List UInt8) (tags : List (List UInt8)) :
    (body (tag :: tags)).length = tag.length + 4 + (body tags).length := by
  rw [body_cons, List.length_append, List.length_append, length_sizeField, Nat.add_assoc]

theorem offsets_append (kind : List UInt8 → Bool) (start : Nat) (tags others : List (List UInt8)) :
    offsets kind start (tags ++ others) = offsets kind start tags ++
      offsets kind (start + (body tags).length) others := by
  induction tags generalizing start with
  | nil => rfl
  | cons tag tags ih =>
    rw [List.cons_append, offsets, offsets, ih, length_body_cons, ← Nat.add_assoc start (tag.length + 4)]
    split <;> rfl

theorem offsets_singleton (kind : List UInt8 → Bool) (start : Nat) (tag : List UInt8) :
    offsets kind start [tag] = if kind tag then [start] else [] := rfl

/-- The place of a tag is behind the tags before it. -/
theorem getElem?_offsets (kind : List UInt8 → Bool) (start i offset : Nat) (tags : List (List UInt8)) :
    (offsets kind start tags)[i]? = some offset ↔ ∃ before tag after, tags = before ++ tag :: after ∧ kind tag ∧
      before.countP kind = i ∧ offset = start + (body before).length := by
  induction tags generalizing start i with
  | nil =>
    refine iff_of_false nofun ?_
    rintro ⟨before, tag, after, split, -⟩
    exact absurd split.symm (List.append_ne_nil_of_right_ne_nil before (List.cons_ne_nil tag after))
  | cons first tags ih =>
    -- the tag is the first one, or one of the others
    have cases_first : (∃ before tag after, first :: tags = before ++ tag :: after ∧ kind tag ∧
        before.countP kind = i ∧ offset = start + (body before).length) ↔ (kind first ∧ i = 0 ∧ offset = start) ∨
        ∃ before tag after, tags = before ++ tag :: after ∧ kind tag ∧ (first :: before).countP kind = i ∧
          offset = start + (first.length + 4) + (body before).length := by
      constructor
      · rintro ⟨_ | ⟨_, before⟩, tag, after, split, is, count, place⟩
        · obtain ⟨rfl, rfl⟩ := List.cons.inj split
          exact .inl ⟨is, count.symm, place⟩
        · obtain ⟨rfl, rfl⟩ := List.cons.inj split
          rw [length_body_cons, ← Nat.add_assoc] at place
          exact .inr ⟨before, tag, after, rfl, is, count, place⟩
      · rintro (⟨is, rfl, rfl⟩ | ⟨before, tag, after, rfl, is, count, place⟩)
        · exact ⟨[], first, tags, rfl, is, rfl, rfl⟩
        · rw [Nat.add_assoc, ← length_body_cons] at place
          exact ⟨first :: before, tag, after, rfl, is, count, place⟩
    rw [cases_first, offsets]
    split
    · next is =>
      simp only [List.countP_cons_of_pos is]
      cases i with
      | zero =>
        rw [List.getElem?_cons_zero, Option.some_inj]
        refine ⟨fun same => .inl ⟨is, rfl, same.symm⟩, ?_⟩
        rintro (⟨-, -, same⟩ | ⟨before, tag, after, -, -, count, -⟩)
        · exact same.symm
        · exact absurd count (Nat.succ_ne_zero _)
      | succ i =>
        rw [List.getElem?_cons_succ, ih]
        simp
    · next other =>
      rw [ih]
      simp [other, List.countP_cons_of_neg other]

theorem not_isTag_nil : ¬ IsTag [] := by
  rintro ⟨_, _, _, _, _, same, -⟩
  cases same

theorem dataSize_eq {n : Nat} (bound : n < 2 ^ 24) :
    dataSize (UInt8.ofNat (n >>> 16)) (UInt8.ofNat (n >>> 8)) (UInt8.ofNat n) = n := by
  simp only [dataSize, UInt8.toNat_ofNat', Nat.shiftRight_eq_div_pow]
  omega

theorem stretch_eq {xs ys : List UInt8} (first : Stretch tag) (second : Stretch other)
    (same : tag ++ (sizeField tag.length ++ xs) = other ++ (sizeField other.length ++ ys)) : tag = other := by
  have apart {tag : List UInt8} {xs ys : List UInt8} (isTag : IsTag tag) :
      tag ++ xs ≠ [] ++ (sizeField 0 ++ ys) := by
    obtain ⟨type, b₁, b₂, b₃, rest, rfl, types, -⟩ := isTag
    intro same
    have zero : type = 0 := (List.cons.inj same).1
    rcases types with eight | nine | eighteen <;> simp_all
  rcases first with rfl | ⟨type, b₁, b₂, b₃, rest, rfl, types, length⟩
  · rcases second with rfl | isTag
    · rfl
    · exact absurd same.symm (apart isTag)
  · rcases second with rfl | ⟨type', c₁, c₂, c₃, rest', rfl, -, length'⟩
    · exact absurd same (apart ⟨type, b₁, b₂, b₃, rest, rfl, types, length⟩)
    · simp only [List.cons_append, List.cons.injEq] at same
      obtain ⟨rfl, rfl, rfl, rfl, same⟩ := same
      rw [(List.append_inj same (length.trans length'.symm)).1]

theorem body_inj (stretches : ∀ tag ∈ tags, Stretch tag) (stretches' : ∀ tag ∈ others, Stretch tag)
    (same : body tags = body others) : tags = others := by
  induction tags generalizing others with
  | nil =>
    cases others with
    | nil => rfl
    | cons other others =>
      have length := congrArg List.length same
      rw [length_body_cons, body_nil, List.length_nil] at length
      omega
  | cons tag tags ih =>
    cases others with
    | nil =>
      have length := congrArg List.length same
      rw [length_body_cons, body_nil, List.length_nil] at length
      omega
    | cons other others =>
      rw [body_cons, body_cons] at same
      obtain rfl := stretch_eq (stretches tag List.mem_cons_self) (stretches' other List.mem_cons_self) same
      have rest := List.append_cancel_left (List.append_cancel_left same)
      rw [ih (fun tag member => stretches tag (List.mem_cons_of_mem _ member))
        (fun tag member => stretches' tag (List.mem_cons_of_mem _ member)) rest]

theorem wellFormed_iff {flags : UInt8} (stretches : ∀ tag ∈ tags, Stretch tag) :
    WellFormed (header flags ++ sizeField 0 ++ body tags) ↔ ∀ tag ∈ tags, IsTag tag := by
  constructor
  · rintro ⟨flags', tags', same, isTag⟩
    rw [List.append_assoc, List.append_assoc] at same
    have rest := List.append_cancel_left (List.append_inj same rfl).2
    obtain rfl := body_inj stretches (fun tag member => .inr (isTag tag member)) rest
    exact isTag
  · exact fun isTag => ⟨flags, tags, rfl, isTag⟩

end LiveStreaming.Library.FlvFile
