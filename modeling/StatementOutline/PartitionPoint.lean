/-!
# Partition points

`partitionPoint p xs` is the number of leading elements that satisfy `p`, found by halving, when
the elements that satisfy `p` come first (`Partitioned`). Both position lookups use it: byte
positions among the anchors of a text, and offsets among the ends of sibling statements.

Each step keeps the index where the search stands and the number of elements still undecided; one
test of the middle element decides about half of them.
-/

namespace StatementOutline

variable {α : Type}

/-- The index `i` exists in `xs` and its element satisfies `p`. -/
def holdsAt (p : α → Bool) (xs : Array α) (i : Nat) : Bool :=
  (xs[i]?).any p

/-- Halve the `size` undecided elements from `base` on until one is left, which one more test
decides. -/
def partitionPointFrom (p : α → Bool) (xs : Array α) (base size : Nat) : Nat :=
  if size ≤ 1 then
    if holdsAt p xs base then base + 1 else base
  else
    let mid := base + size / 2
    partitionPointFrom p xs (if holdsAt p xs mid then mid else base) (size - size / 2)
  termination_by size

/-- The index of the first element that fails `p`, or the size if none does. -/
def partitionPoint (p : α → Bool) (xs : Array α) : Nat :=
  if xs.size = 0 then 0 else partitionPointFrom p xs 0 xs.size

/-- The elements that satisfy `p` come before all others. -/
def Partitioned (p : α → Bool) (xs : Array α) : Prop :=
  ∀ i j, i ≤ j → holdsAt p xs j = true → holdsAt p xs i = true

variable {p : α → Bool} {xs : Array α}

/-- The search is right between `base` and `base + size`, if everything below satisfies `p` and
nothing above does. -/
theorem holdsAt_iff_lt_partitionPointFrom (hp : Partitioned p xs) {base size : Nat}
    (hsize : 0 < size) (below : ∀ i, i < base → holdsAt p xs i = true)
    (above : ∀ i, base + size ≤ i → holdsAt p xs i = false) (i : Nat) :
    holdsAt p xs i = true ↔ i < partitionPointFrom p xs base size := by
  fun_induction partitionPointFrom p xs base size with
  | case1 base size hle hb =>
    refine ⟨fun h => Nat.lt_of_not_le fun hi => ?_, fun hi => hp i base (by omega) hb⟩
    rw [above i (by omega)] at h
    cases h
  | case2 base size hle hb =>
    refine ⟨fun h => Nat.lt_of_not_le fun hi => ?_, below i⟩
    exact hb (hp base i hi h)
  | case3 base size hle mid ih =>
    apply ih (by omega)
    · intro j hj
      split at hj
      · next hm => exact hp j mid (by omega) hm
      · exact below j hj
    · intro j hj
      split at hj
      · exact above j (by omega)
      · next hm =>
        cases hj' : holdsAt p xs j with
        | false => rfl
        | true => exact absurd (hp mid j (by omega) hj') hm

/-- The elements that satisfy `p` are those before the partition point. -/
theorem holdsAt_iff_lt_partitionPoint (hp : Partitioned p xs) (i : Nat) :
    holdsAt p xs i = true ↔ i < partitionPoint p xs := by
  have none_behind : ∀ i, xs.size ≤ i → holdsAt p xs i = false := fun i hi => by
    simp [holdsAt, Array.getElem?_eq_none hi]
  unfold partitionPoint
  split
  · next h => simp [none_behind i (by omega)]
  · exact holdsAt_iff_lt_partitionPointFrom hp (by omega)
      (fun i hi => absurd hi (Nat.not_lt_zero i)) (fun i hi => none_behind i (by omega)) i

end StatementOutline
