import Mathlib.Data.List.Sort
import StatementOutline.Outline.Locate
import StatementOutline.Proofs.Outline.Nesting

/-!
# Lookups are exact

In a nested outline with agreeing links, `locate` finds the innermost statement that owns an offset,
and the statements that own it are that one and those around it (`locate_exact`). At each level the
halving search meets the only sibling that can own the offset (`ownerAmong_eq_some_iff`): touching,
gaps and zero width move the partition point, but not past an owner. Nothing deeper is missed, since
whatever owns the offset has an owner for its parent.
-/

namespace StatementOutline.Outline

variable {o : Outline} {level : Array Nat} {offset a b c i j k m : Nat}

/-- Statement `i` exists and owns the offset. -/
def Owns (o : Outline) (offset i : Nat) : Prop :=
  i < o.size ∧ (o.node i).span.contains offset = true

instance (o : Outline) (offset i : Nat) : Decidable (o.Owns offset i) :=
  inferInstanceAs (Decidable (i < o.size ∧ (o.node i).span.contains offset = true))

theorem mem_owners : i ∈ o.owners offset ↔ o.Owns offset i := by
  simp [owners, Owns]

/-! ## One level -/

/-- Ids of statements whose spans run forwards, in order and apart. -/
structure Apart (o : Outline) (level : Array Nat) : Prop where
  start_le_stop : ∀ i ∈ level, (o.node i).span.start ≤ (o.node i).span.stop
  pairwise : level.toList.Pairwise fun a b => (o.node a).span.Before (o.node b).span

theorem Apart.before (h : o.Apart level) (hab : m < k) (ha : level[m]? = some a)
    (hb : level[k]? = some b) : (o.node a).span.stop ≤ (o.node b).span.start := by
  obtain ⟨hm, rfl⟩ := Array.getElem?_eq_some_iff.1 ha
  obtain ⟨hk, rfl⟩ := Array.getElem?_eq_some_iff.1 hb
  exact List.pairwise_iff_getElem.1 h.pairwise m k hm hk hab

theorem holdsAt_stop_iff : holdsAt (fun id => (o.node id).span.stop ≤ offset) level k = true ↔
    ∃ i, level[k]? = some i ∧ (o.node i).span.stop ≤ offset := by
  simp only [holdsAt, Option.any_eq_true, decide_eq_true_eq]

/-- Where statements are apart, those that end at or before the offset come first, so bisection
applies. -/
theorem Apart.partitioned (h : o.Apart level) (offset : Nat) :
    Partitioned (fun id => (o.node id).span.stop ≤ offset) level := by
  intro m k hmk hk
  rw [holdsAt_stop_iff] at hk ⊢
  obtain ⟨b, hb, hle⟩ := hk
  rcases Nat.eq_or_lt_of_le hmk with rfl | hmk
  · exact ⟨b, hb, hle⟩
  · have hm : m < level.size := Nat.lt_trans hmk (Array.getElem?_eq_some_iff.1 hb).1
    have ha : level[m]? = some level[m] := Array.getElem?_eq_getElem hm
    have hab := h.before hmk ha hb
    have hforward := h.start_le_stop b (Array.mem_of_getElem? hb)
    exact ⟨level[m], ha, by omega⟩

/-- The search of one level finds the sibling that owns the offset, whichever it is. -/
theorem Apart.ownerAmong_eq_some_iff (h : o.Apart level) :
    o.ownerAmong level offset = some c ↔
      c ∈ level ∧ (o.node c).span.contains offset = true := by
  constructor
  · intro hc
    exact ⟨mem_of_ownerAmong hc, (Option.filter_eq_some_iff.1 hc).2⟩
  · rintro ⟨hmem, hown⟩
    obtain ⟨k, hk⟩ := Array.mem_iff_getElem?.1 hmem
    obtain ⟨hstart, hstop⟩ := Span.contains_iff.1 hown
    have hpoint := holdsAt_iff_lt_partitionPoint (h.partitioned offset)
    -- Everything before the owner has been passed, and the owner itself has not.
    have hle : ¬ k < partitionPoint (fun id => (o.node id).span.stop ≤ offset) level := by
      rw [← hpoint, holdsAt_stop_iff]
      rintro ⟨i, hi, hle⟩
      rw [hk] at hi
      cases hi
      omega
    have hge : ¬ partitionPoint (fun id => (o.node id).span.stop ≤ offset) level < k := by
      intro hlt
      have hsize := Nat.lt_trans hlt (Array.getElem?_eq_some_iff.1 hk).1
      have hbefore := h.before hlt (Array.getElem?_eq_getElem hsize) hk
      refine Nat.lt_irrefl _ ((hpoint _).1 ?_)
      rw [holdsAt_stop_iff]
      exact ⟨_, Array.getElem?_eq_getElem hsize, by omega⟩
    have hpassed : partitionPoint (fun id => (o.node id).span.stop ≤ offset) level = k := by
      omega
    simp [ownerAmong, hpassed, hk, hown]

/-- Bisection misses nothing: if it finds no statement, none of the level holds the offset. -/
theorem Apart.ownerAmong_eq_none_iff (h : o.Apart level) : o.ownerAmong level offset = none ↔
    ∀ c ∈ level, (o.node c).span.contains offset = false := by
  rw [Option.eq_none_iff_forall_ne_some]
  constructor
  · intro hnone c hc
    cases hown : (o.node c).span.contains offset with
    | false => rfl
    | true => exact absurd (h.ownerAmong_eq_some_iff.2 ⟨hc, hown⟩) (hnone c)
  · intro hnone c hc
    obtain ⟨hmem, hown⟩ := h.ownerAmong_eq_some_iff.1 hc
    rw [hnone c hmem] at hown
    cases hown

/-! ## The levels of an outline -/

theorem ancestors_eq_climb (o : Outline) (i : Nat) : o.ancestors i = climb o.parentLink i := by
  induction i using Nat.strongRecOn with
  | ind i ih =>
    have hlink : o.parentOf i = (o.parentLink i).filter (· < i) := rfl
    rw [ancestors, climb]
    split
    · next p hp =>
      rw [ih p (parentOf_lt hp)]
      split
      · next q hq =>
        rw [← hlink, hp] at hq
        cases hq
        rfl
      · next hq =>
        rw [← hlink, hp] at hq
        cases hq
    · next hp =>
      split
      · next q hq =>
        rw [← hlink, hp] at hq
        cases hq
      · rfl

/-- Where the links agree, none is left out for going to the wrong side. -/
theorem LinksAgree.childrenOf_eq (h : o.LinksAgree) (i : Nat) :
    o.childrenOf i = (o.node i).children := by
  rw [childrenOf, Array.filter_eq_self]
  intro c hc
  obtain ⟨hsize, hparent⟩ := (h.mem_children i c).1 hc
  simp [hsize, h.falling c i hparent]

theorem Nested.apart_roots (hn : o.Nested) (hl : o.LinksAgree) : o.Apart o.roots := by
  have hforward : ∀ i ∈ o.roots, (o.node i).span.start ≤ (o.node i).span.stop :=
    fun i hi => hn.start_le_stop i ((hl.mem_roots i).1 hi).1
  refine ⟨hforward, Span.pairwise_before (f := fun i => (o.node i).span) ?_ hn.roots_apart⟩
  intro i hi
  exact hforward i (Array.mem_def.2 hi)

theorem Nested.apart_children (hn : o.Nested) (hl : o.LinksAgree) (i : Nat) :
    o.Apart (o.node i).children := by
  have hforward : ∀ c ∈ (o.node i).children, (o.node c).span.start ≤ (o.node c).span.stop :=
    fun c hc => hn.start_le_stop c ((hl.mem_children i c).1 hc).1
  refine ⟨hforward, Span.pairwise_before (f := fun c => (o.node c).span) ?_ (hn.children_apart i)⟩
  intro c hc
  exact hforward c (Array.mem_def.2 hc)

/-! ## Down to the innermost owner -/

/-- The search level by level, along the lists of children as they are: with `found` so far, going
on from the ids `level` leads to `result`. -/
inductive Search (o : Outline) (offset : Nat) : Array Nat → Option Nat → Option Nat → Prop
  | done {level found} (h : o.ownerAmong level offset = none) : Search o offset level found found
  | step {level found result c} (h : o.ownerAmong level offset = some c)
      (next : Search o offset (o.node c).children (some c) result) :
      Search o offset level found result

theorem innermostFrom_of_some (h : o.ownerAmong (o.childrenOf i) offset = some c) :
    o.innermostFrom offset i = o.innermostFrom offset c := by
  rw [innermostFrom]
  split
  · next d hd =>
    rw [h] at hd
    cases hd
    rfl
  · next hd =>
    rw [h] at hd
    cases hd

theorem innermostFrom_of_none (h : o.ownerAmong (o.childrenOf i) offset = none) :
    o.innermostFrom offset i = i := by
  rw [innermostFrom]
  split
  · next d hd =>
    rw [h] at hd
    cases hd
  · rfl

/-- Statement `i` owns the offset, and no child of it does. -/
def Innermost (o : Outline) (offset i : Nat) : Prop :=
  o.Owns offset i ∧ ∀ c ∈ (o.node i).children, ¬ o.Owns offset c

section Located

variable (hl : o.LinksAgree) (hn : o.Nested)

include hl hn

/-- From a statement that owns the offset, the search goes down to one that owns it and has no child
that does. -/
theorem innermostFrom_spec (hi : o.Owns offset i) :
    o.Innermost offset (o.innermostFrom offset i) ∧
      Under o.parentLink i (o.innermostFrom offset i) ∧
      o.Search offset (o.node i).children (some i) (some (o.innermostFrom offset i)) := by
  induction i using child_induction o with
  | step i ih =>
    have hchildren := hl.childrenOf_eq i
    have hapart := hn.apart_children hl i
    cases howner : o.ownerAmong (o.childrenOf i) offset with
    | none =>
      rw [innermostFrom_of_none howner]
      rw [hchildren] at howner
      refine ⟨⟨hi, fun c hc hown => ?_⟩, .inl rfl, .done howner⟩
      rw [Owns, hapart.ownerAmong_eq_none_iff.1 howner c hc] at hown
      exact Bool.false_ne_true hown.2
    | some c =>
      have hbelow := ih c (mem_of_ownerAmong howner)
      rw [innermostFrom_of_some howner]
      rw [hchildren] at howner
      obtain ⟨hmem, hown⟩ := hapart.ownerAmong_eq_some_iff.1 howner
      obtain ⟨hsize, hparent⟩ := (hl.mem_children i c).1 hmem
      obtain ⟨hinner, hunder, hsearch⟩ := hbelow ⟨hsize, hown⟩
      exact ⟨hinner, Under.trans hl.falling (.inr (mem_climb_of_link hl.falling hparent)) hunder,
        .step howner hsearch⟩

/-- A parent encloses its children, so it owns what they own. -/
theorem owns_parent (hj : o.Owns offset j) (hp : (o.node j).parent = some i) :
    o.Owns offset i := by
  refine ⟨Nat.lt_trans (hl.falling j i hp) hj.1, ?_⟩
  have hown := Span.contains_iff.1 hj.2
  have hinside := Span.encloses_iff.1 (hn.inside j i hp)
  rw [Span.contains_iff]
  omega

theorem owns_of_under (hj : o.Owns offset j) (hij : Under o.parentLink i j) : o.Owns offset i := by
  induction j using Nat.strongRecOn with
  | ind j ih =>
    rcases hij with rfl | hij
    · exact hj
    · obtain ⟨p, hp, hip⟩ := (mem_climb hl.falling).1 hij
      exact ih p (hl.falling j p hp) (owns_parent hl hn hj hp) (hip.imp_left Eq.symm)

theorem exists_root_owner (hj : o.Owns offset j) :
    ∃ i ∈ o.roots, o.Owns offset i ∧ Under o.parentLink i j := by
  induction j using Nat.strongRecOn with
  | ind j ih =>
    cases hp : (o.node j).parent with
    | none => exact ⟨j, (hl.mem_roots j).2 ⟨hj.1, hp⟩, hj, .inl rfl⟩
    | some p =>
      obtain ⟨i, hroot, hown, hip⟩ := ih p (hl.falling j p hp) (owns_parent hl hn hj hp)
      exact ⟨i, hroot, hown, hip.trans hl.falling (.inr (mem_climb_of_link hl.falling hp))⟩

theorem root_owner_unique (hi : i ∈ o.roots) (hj : j ∈ o.roots) (hio : o.Owns offset i)
    (hjo : o.Owns offset j) : i = j := by
  have hapart := hn.apart_roots hl
  have hi' := hapart.ownerAmong_eq_some_iff.2 ⟨hi, hio.2⟩
  rw [hapart.ownerAmong_eq_some_iff.2 ⟨hj, hjo.2⟩] at hi'
  exact (Option.some.inj hi').symm

theorem child_owner_unique (hi : (o.node i).parent = some k) (hj : (o.node j).parent = some k)
    (hio : o.Owns offset i) (hjo : o.Owns offset j) : i = j := by
  have hapart := hn.apart_children hl k
  have hi' := hapart.ownerAmong_eq_some_iff.2 ⟨(hl.mem_children k i).2 ⟨hio.1, hi⟩, hio.2⟩
  rw [hapart.ownerAmong_eq_some_iff.2 ⟨(hl.mem_children k j).2 ⟨hjo.1, hj⟩, hjo.2⟩] at hi'
  exact (Option.some.inj hi').symm

/-- Every owner is the innermost one or stands above it. -/
theorem under_of_owns (hm : o.Innermost offset m) (hj : o.Owns offset j) :
    Under o.parentLink j m := by
  induction j using Nat.strongRecOn with
  | ind j ih =>
    cases hp : (o.node j).parent with
    | none =>
      obtain ⟨i, hroot, hown, him⟩ := exists_root_owner hl hn hm.1
      have hij : i = j := root_owner_unique hl hn hroot ((hl.mem_roots j).2 ⟨hj.1, hp⟩) hown hj
      exact hij ▸ him
    | some p =>
      rcases ih p (hl.falling j p hp) (owns_parent hl hn hj hp) with rfl | hpm
      · exact absurd hj (hm.2 j ((hl.mem_children m j).2 ⟨hj.1, hp⟩))
      · obtain ⟨c, hc, hcm⟩ := (mem_climb_iff_under hl.falling).1 hpm
        have hcj : c = j := child_owner_unique hl hn hc hp (owns_of_under hl hn hm.1 hcm) hj
        exact hcj ▸ hcm

/-- There is one innermost owner at most: of two owners one stands at or above the other. -/
theorem innermost_unique (hi : o.Innermost offset i) (hj : o.Innermost offset j) : i = j := by
  rcases under_of_owns hl hn hi hj.1 with h | hji
  · exact h
  · rcases under_of_owns hl hn hj hi.1 with h | hij
    · exact h.symm
    · exact absurd (lt_of_mem_climb hl.falling hji)
        (Nat.lt_asymm (lt_of_mem_climb hl.falling hij))

/-- A lookup finds nothing just when nobody owns the offset. -/
theorem locate_eq_none_iff : o.locate offset = none ↔ ∀ i, ¬ o.Owns offset i := by
  have hapart := hn.apart_roots hl
  rw [locate, Option.map_eq_none_iff, hapart.ownerAmong_eq_none_iff]
  constructor
  · intro hnone i hi
    obtain ⟨j, hroot, hown, -⟩ := exists_root_owner hl hn hi
    rw [Owns, hnone j hroot] at hown
    exact Bool.false_ne_true hown.2
  · intro hnone i hi
    cases hown : (o.node i).span.contains offset with
    | false => rfl
    | true => exact absurd ⟨((hl.mem_roots i).1 hi).1, hown⟩ (hnone i)

/-- A lookup finds the innermost owner. -/
theorem locate_eq_some_iff : o.locate offset = some i ↔ o.Innermost offset i := by
  have hfound : ∀ {i}, o.locate offset = some i → o.Innermost offset i := by
    intro i hi
    obtain ⟨c, hc, rfl⟩ := Option.map_eq_some_iff.1 hi
    obtain ⟨hmem, hown⟩ := (hn.apart_roots hl).ownerAmong_eq_some_iff.1 hc
    exact (innermostFrom_spec hl hn ⟨((hl.mem_roots c).1 hmem).1, hown⟩).1
  constructor
  · exact hfound
  · intro hi
    cases hloc : o.locate offset with
    | none => exact absurd hi.1 ((locate_eq_none_iff hl hn).1 hloc i)
    | some j => rw [innermost_unique hl hn hi (hfound hloc)]

/-- The lookup is the search level by level along the raw lists of children. -/
theorem search_locate (offset : Nat) : o.Search offset o.roots none (o.locate offset) := by
  unfold locate
  cases hc : o.ownerAmong o.roots offset with
  | none => exact .done hc
  | some c =>
    obtain ⟨hmem, hown⟩ := (hn.apart_roots hl).ownerAmong_eq_some_iff.1 hc
    have hspec := innermostFrom_spec hl hn (i := c) ⟨((hl.mem_roots c).1 hmem).1, hown⟩
    exact .step hc hspec.2.2

/-- The owners of an offset are the statement that the lookup finds, and all above it. -/
theorem owns_iff_of_locate (hi : o.locate offset = some i) :
    o.Owns offset j ↔ j = i ∨ j ∈ o.ancestors i := by
  have hinner := (locate_eq_some_iff hl hn).1 hi
  rw [ancestors_eq_climb]
  constructor
  · intro hj
    exact (under_of_owns hl hn hinner hj).imp_left Eq.symm
  · intro hj
    exact owns_of_under hl hn hinner.1 (hj.imp_left Eq.symm)

/-- The scan of the whole table lists the located statement and those around it, from the outermost
in. -/
theorem owners_eq_reverse (offset : Nat) : o.owners offset =
    ((o.locate offset).elim [] fun i => i :: o.ancestors i).reverse := by
  have hsorted : (o.owners offset).Pairwise (· < ·) := List.pairwise_lt_range.filter _
  cases hi : o.locate offset with
  | none =>
    have hnone := (locate_eq_none_iff hl hn).1 hi
    exact List.eq_nil_iff_forall_not_mem.2 fun j hj => hnone j (mem_owners.1 hj)
  | some i =>
    refine hsorted.eq_of_mem_iff (List.pairwise_reverse.2 ?_) fun j => ?_
    · rw [Option.elim_some, ancestors_eq_climb]
      exact pairwise_climb hl.falling i
    · rw [mem_owners, owns_iff_of_locate hl hn hi, List.mem_reverse, Option.elim_some,
        List.mem_cons]

/-- A statement and those around it form one line, each the parent of the one before and around
it. -/
theorem isChain_ancestors (i : Nat) : (i :: o.ancestors i).IsChain fun a b =>
    (o.node a).parent = some b ∧ (o.node b).span.encloses (o.node a).span = true := by
  rw [ancestors_eq_climb]
  induction i using Nat.strongRecOn with
  | ind i ih =>
    cases hp : (o.node i).parent with
    | none => rw [climb_of_none hp]; exact .singleton i
    | some p =>
      rw [climb_of_some hl.falling hp]
      exact .cons_cons ⟨hp, hn.inside i p hp⟩ (ih p (hl.falling i p hp))

end Located

/-- **Lookups are exact.** In a nested outline with agreeing links the search ends at every offset.
It finds nothing just when no statement owns the offset, and otherwise the only statement that owns
it without a child that does; the owners are then that statement and those around it, which a scan
of the whole table lists from the outermost in. -/
theorem locate_exact (hl : o.LinksAgree) (hn : o.Nested) (offset : Nat) :
    o.Search offset o.roots none (o.locate offset) ∧
    (o.locate offset = none ↔ ∀ i, ¬ o.Owns offset i) ∧
    (∀ i, o.locate offset = some i ↔
      o.Owns offset i ∧ ∀ c ∈ (o.node i).children, ¬ o.Owns offset c) ∧
    (∀ i, o.locate offset = some i → ∀ j, o.Owns offset j ↔ j = i ∨ j ∈ o.ancestors i) ∧
    (∀ i, (i :: o.ancestors i).IsChain fun a b =>
      (o.node a).parent = some b ∧ (o.node b).span.encloses (o.node a).span = true) ∧
    o.owners offset = ((o.locate offset).elim [] fun i => i :: o.ancestors i).reverse :=
  ⟨search_locate hl hn offset, locate_eq_none_iff hl hn, fun _ => locate_eq_some_iff hl hn,
    fun _ hi _ => owns_iff_of_locate hl hn hi, isChain_ancestors hl hn,
    owners_eq_reverse hl hn offset⟩

/-- A call, an empty statement at its end, and a block that starts there and holds a block with a
call of the same span. -/
def touching : Outline where
  nodes := #[⟨"block", ⟨5, 9⟩, ⟨5, 9⟩, true, none, #[3]⟩,
    ⟨"call", ⟨0, 5⟩, ⟨0, 5⟩, false, none, #[]⟩,
    ⟨"empty", ⟨5, 5⟩, ⟨5, 5⟩, false, none, #[]⟩,
    ⟨"block", ⟨6, 8⟩, ⟨6, 8⟩, true, some 0, #[4]⟩,
    ⟨"call", ⟨6, 8⟩, ⟨6, 8⟩, false, some 3, #[]⟩]
  roots := #[1, 2, 0]

theorem locate_touching : touching.LinksAgree ∧ touching.Nested ∧ touching.locate 5 = some 0 ∧
    touching.locate 7 = some 4 ∧ touching.owners 7 = (4 :: touching.ancestors 4).reverse := by
  have hl : touching.LinksAgree := by decide
  have hn : touching.Nested := by decide
  obtain ⟨-, -, hat5, -⟩ := locate_exact hl hn 5
  obtain ⟨-, -, hat7, -, -, hscan⟩ := locate_exact hl hn 7
  have h7 : touching.locate 7 = some 4 := (hat7 4).2 ⟨by decide, by decide⟩
  rw [h7] at hscan
  exact ⟨hl, hn, (hat5 0).2 ⟨by decide, by decide⟩, h7, hscan⟩

end StatementOutline.Outline
