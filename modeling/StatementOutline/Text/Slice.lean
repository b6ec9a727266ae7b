/-!
# Byte positions in a text

A byte position is a boundary of a text when it is the number of UTF-8 bytes of some leading
characters. `splitAtByte?` cuts there, and fails everywhere else, so a slice between two byte
positions exists exactly when both are boundaries in order.
-/

namespace StatementOutline.Text

/-- Number of UTF-8 bytes of a list of characters. -/
def byteLength : List Char → Nat
  | [] => 0
  | c :: cs => c.utf8Size + byteLength cs

/-- The characters before and after byte position `n`, if it is a boundary. -/
def splitAtByte? : List Char → Nat → Option (List Char × List Char)
  | cs, 0 => some ([], cs)
  | [], _ + 1 => none
  | c :: cs, n + 1 =>
    if c.utf8Size ≤ n + 1 then
      (splitAtByte? cs (n + 1 - c.utf8Size)).map fun (left, right) => (c :: left, right)
    else
      none

/-- A cut falls on boundaries only, loses nothing, and has as many bytes before it as asked. -/
theorem splitAtByte?_eq_some_iff {cs left right : List Char} {n : Nat} :
    splitAtByte? cs n = some (left, right) ↔ cs = left ++ right ∧ byteLength left = n := by
  fun_induction splitAtByte? cs n generalizing left right with
  | case1 cs =>
    constructor
    · intro h
      cases h
      exact ⟨rfl, rfl⟩
    · rintro ⟨rfl, h⟩
      cases left with
      | nil => rfl
      | cons c left =>
        have := c.utf8Size_pos
        simp only [byteLength] at h
        omega
  | case2 n =>
    simp only [reduceCtorEq, false_iff, not_and]
    intro h
    obtain ⟨rfl, -⟩ := List.append_eq_nil_iff.1 h.symm
    simp [byteLength]
  | case3 c cs n hc ih =>
    rw [Option.map_eq_some_iff]
    constructor
    · rintro ⟨⟨l, r⟩, h, e⟩
      cases e
      obtain ⟨rfl, hl⟩ := ih.1 h
      refine ⟨rfl, ?_⟩
      simp only [byteLength] at hl ⊢
      omega
    · rintro ⟨e, h⟩
      cases left with
      | nil => simp [byteLength] at h
      | cons d left =>
        cases e
        simp only [byteLength] at h
        exact ⟨(left, right), ih.2 ⟨rfl, by omega⟩, rfl⟩
  | case4 c cs n hc =>
    simp only [reduceCtorEq, false_iff, not_and]
    intro e h
    cases left with
    | nil => simp [byteLength] at h
    | cons d left =>
      cases e
      simp only [byteLength] at h
      omega

/-- The text from byte `start` to byte `stop`, if both are boundaries and in order. -/
def slice? (text : String) (start stop : Nat) : Option String :=
  if stop < start then none
  else do
    let (_, rest) ← splitAtByte? text.toList start
    let (inner, _) ← splitAtByte? rest (stop - start)
    return String.ofList inner

end StatementOutline.Text
