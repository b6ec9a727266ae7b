import StatementOutline.Outline.Print
import StatementOutline.Proofs.Outline.Numbering

/-!
# Listings by id

A listing goes down from the roots along the lists of children, and a path goes up along the parents
and is turned round. Both can be read off the ids alone. The listing of an outline is one line for
each id, from zero up, indented by the number of ancestors (`dump_eq`). The path to a statement is
one line for each depth down to its own, with the one statement of that depth among itself and its
ancestors (`dumpPath_eq`, `eq_chainAt_iff`).
-/

namespace StatementOutline

theorem join_flatMap {α : Type} (f : α → List String) (l : List α) :
    String.join (l.flatMap f) = String.join (l.map fun a => String.join (f a)) := by
  induction l with
  | nil => rfl
  | cons a l ih => rw [List.flatMap_cons, String.join_append, ih, List.map_cons, String.join_cons]

namespace Outline

variable {o : Outline} {a d i k p : Nat}

/-! ## The whole outline -/

/-- What stands before the indentation of statement `k` in a listing: its number among the roots, or
nothing. -/
def mark (o : Outline) (k : Nat) : String :=
  match o.roots.toList.idxOf? k with
  | some number => "[" ++ toString number ++ "] "
  | none => ""

/-- The line of statement `k` in a listing. -/
def entry (o : Outline) (k : Nat) : String :=
  o.mark k ++ indent (o.ancestors k).length ++ (o.node k).describe ++ "\n"

theorem entry_eq (o : Outline) (k : Nat) :
    o.entry k = o.mark k ++ o.line (o.ancestors k).length k := by
  simp only [entry, line, String.append_assoc]

theorem mark_of_not_mem (h : k ∉ o.roots) : o.mark k = "" := by
  have hnone : o.roots.toList.idxOf? k = none := by simpa using h
  rw [mark, hnone]

theorem mark_of_getElem? (hl : o.Linked) (h : o.roots[i]? = some k) :
    o.mark k = "[" ++ toString i ++ "] " := by
  have hnodup : o.roots.toList.Nodup := by
    rw [hl.roots_eq]
    exact (o.pairwise_level none).imp Nat.ne_of_lt
  have hsome : o.roots.toList.idxOf? k = some i := by
    obtain ⟨hi, hk⟩ := List.getElem?_eq_some_iff.1 ((Array.getElem?_toList).trans h)
    refine List.idxOf?_eq_some_iff.2 ⟨hi, hk, fun j hj hjk => ?_⟩
    have hji := (hnodup.getElem_inj_iff).1 (hjk.trans hk.symm)
    omega
  rw [mark, hsome]

theorem mark_of_parent (hl : o.Linked) (h : (o.node k).parent = some p) : o.mark k = "" := by
  apply mark_of_not_mem
  rw [hl.mem_roots, h]
  simp

section Contiguous

variable (hl : o.Linked) (hc : o.Contiguous)

include hl hc

/-- The listing of a root is the entries of its stretch, by `preorderFrom_eq_map`. -/
theorem dumpRoot_eq (h : o.roots[i]? = some k) :
    o.dumpRoot i k = String.join ((o.stretch k).map o.entry) := by
  have hfall := hl.linksAgree.falling
  obtain ⟨hk, hparent⟩ := hl.mem_roots.1 (Array.mem_of_getElem? h)
  have hpreorder : o.preorderFrom 0 k = (o.stretch k).map o.placed := by
    rw [← preorderFrom_eq_map hl hc k hk, ancestors_of_none hparent, List.length_nil]
  -- Whatever stands below the root has a parent, so that only the root is marked.
  have hbelow : ∀ j ∈ (o.level (some k)).flatMap o.stretch,
      o.line (o.ancestors j).length j = o.entry j := by
    intro j hj
    obtain ⟨c, hck, hcj⟩ := List.mem_flatMap.1 hj
    obtain ⟨hcs, hcp⟩ := mem_level.1 hck
    have hkj := (mem_climb_iff_under hfall).2 ⟨c, hcp, (mem_stretch hcs).1 hcj⟩
    obtain ⟨p, hp, -⟩ := (mem_climb hfall).1 hkj
    rw [entry_eq, mark_of_parent hl hp, String.empty_append]
  have hlines : ((o.preorderFrom 0 k).map fun p => o.line p.1 p.2) =
      o.line (o.ancestors k).length k :: ((o.level (some k)).flatMap o.stretch).map o.entry := by
    rw [hpreorder, stretch_eq hl hc hk, List.map_map, List.map_cons]
    exact congrArg _ (List.map_congr_left hbelow)
  calc o.dumpRoot i k
      = o.mark k ++ String.join ((o.preorderFrom 0 k).map fun p => o.line p.1 p.2) := by
        rw [mark_of_getElem? hl h]
        rfl
    _ = o.entry k ++ String.join (((o.level (some k)).flatMap o.stretch).map o.entry) := by
        rw [hlines, String.join_cons, ← String.append_assoc, ← entry_eq]
    _ = String.join ((o.stretch k).map o.entry) := by
        rw [stretch_eq hl hc hk, List.map_cons, String.join_cons]

/-- The listing has an entry for each statement, in the order of ids. -/
theorem dump_eq : o.dump = String.join ((List.range o.size).map o.entry) := by
  have hroots : o.roots.toList = o.level none := hl.roots_eq
  have hlines : (o.roots.toList.zipIdx.map fun p => o.dumpRoot p.2 p.1) =
      o.roots.toList.map fun root => String.join ((o.stretch root).map o.entry) := by
    conv_rhs => rw [← o.roots.toList.zipIdx_map_fst 0, List.map_map]
    apply List.map_congr_left
    rintro ⟨root, number⟩ hroot
    rw [List.mk_mem_zipIdx_iff_getElem?, Array.getElem?_toList] at hroot
    exact dumpRoot_eq hl hc hroot
  calc o.dump
      = String.join (o.roots.toList.zipIdx.map fun p => o.dumpRoot p.2 p.1) := rfl
    _ = String.join (((o.level none).flatMap o.stretch).map o.entry) := by
        rw [hlines, hroots, List.map_flatMap, join_flatMap]
    _ = String.join ((List.range o.size).map o.entry) := by
        rw [← range_eq hl hc]

end Contiguous

/-! ## The path to a statement -/

/-- The statement at depth `d` on the way down to statement `k`. -/
def chainAt (o : Outline) (k d : Nat) : Nat :=
  (o.chain k).getD d k

theorem mem_chain : a ∈ o.chain k ↔ a = k ∨ a ∈ o.ancestors k := by
  simp [chain, or_comm]

theorem length_chain (o : Outline) (k : Nat) : (o.chain k).length = (o.ancestors k).length + 1 := by
  simp [chain]

theorem chain_of_none (h : (o.node k).parent = none) : o.chain k = [k] := by
  rw [chain, ancestors_of_none h]
  rfl

theorem chain_of_some (hl : o.Linked) (h : (o.node k).parent = some p) :
    o.chain k = o.chain p ++ [k] := by
  rw [chain, ancestors_of_some hl h, List.reverse_cons, chain]

theorem chainAt_self (o : Outline) (k : Nat) : o.chainAt k (o.ancestors k).length = k := by
  simp [chainAt, chain]

theorem getElem?_chain (hd : d ≤ (o.ancestors k).length) :
    (o.chain k)[d]? = some (o.chainAt k d) := by
  have hlt : d < (o.chain k).length := by
    rw [length_chain]
    omega
  rw [chainAt, List.getD_eq_getElem?_getD, List.getElem?_eq_getElem hlt, Option.getD_some]

/-- The place of a statement on a chain is its depth. -/
theorem length_ancestors_of_chain (hl : o.Linked) (h : (o.chain k)[d]? = some a) :
    (o.ancestors a).length = d := by
  induction k using Nat.strongRecOn with
  | ind k ih =>
    cases hparent : (o.node k).parent with
    | none =>
      rw [chain_of_none hparent] at h
      obtain ⟨rfl, rfl⟩ : d = 0 ∧ k = a := by simpa [List.getElem?_singleton] using h
      rw [ancestors_of_none hparent, List.length_nil]
    | some p =>
      by_cases hd : d < (o.chain p).length
      · rw [chain_of_some hl hparent, List.getElem?_append_left hd] at h
        exact ih p (hl.parent_lt hparent) h
      · rw [chain_of_some hl hparent, List.getElem?_append_right (Nat.le_of_not_lt hd)] at h
        obtain ⟨hlast, rfl⟩ : d - (o.chain p).length = 0 ∧ k = a := by
          simpa [List.getElem?_singleton] using h
        rw [ancestors_of_some hl hparent, List.length_cons, ← length_chain]
        omega

/-- Of a statement and those around it, just one has a given depth. -/
theorem eq_chainAt_iff (hl : o.Linked) (hd : d ≤ (o.ancestors k).length) :
    a = o.chainAt k d ↔ (a = k ∨ a ∈ o.ancestors k) ∧ (o.ancestors a).length = d := by
  have hat := getElem?_chain hd
  rw [← mem_chain]
  constructor
  · rintro rfl
    exact ⟨List.mem_of_getElem? hat, length_ancestors_of_chain hl hat⟩
  · rintro ⟨ha, hdepth⟩
    obtain ⟨m, hm⟩ := List.mem_iff_getElem?.1 ha
    have hmd : m = d := (length_ancestors_of_chain hl hm).symm.trans hdepth
    rw [hmd, hat] at hm
    exact (Option.some.inj hm).symm

theorem zipIdx_chain (o : Outline) (k : Nat) : (o.chain k).zipIdx =
    (List.range ((o.ancestors k).length + 1)).map fun d => (o.chainAt k d, d) := by
  apply List.ext_getElem?
  intro d
  by_cases hd : d ≤ (o.ancestors k).length
  · rw [List.getElem?_zipIdx, getElem?_chain hd]
    simp [Nat.lt_succ_of_le hd]
  · rw [List.getElem?_eq_none, List.getElem?_eq_none]
    · rw [List.length_map, List.length_range]
      omega
    · rw [List.length_zipIdx, length_chain]
      omega

/-- The path to a statement in a flat form: the root on the line that is under way, and then one
line for each step down. -/
theorem dumpPath_eq (o : Outline) (k : Nat) (lead pad : String) : o.dumpPath k lead pad =
    lead ++ (o.node (o.chainAt k 0)).describe ++
      String.join ((List.range' 1 (o.ancestors k).length).map fun d =>
        "\n" ++ pad ++ indent d ++ (o.node (o.chainAt k d)).describe) := by
  rw [dumpPath, zipIdx_chain, List.map_map, List.range_eq_range', List.range'_succ, List.map_cons,
    String.join_cons]
  congr 1
  refine congrArg String.join (List.map_congr_left fun d hd => ?_)
  have hpos : d ≠ 0 := Nat.one_le_iff_ne_zero.1 (List.mem_range'_1.1 hd).1
  simp [hpos]

end Outline

end StatementOutline
