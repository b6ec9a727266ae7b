import Mathlib.Data.List.Chain
import StatementOutline.Span

/-!
# Spans in order

Two facts about spans carry everything said about nested trees and outlines: spans that follow each
other one by one are in order altogether, and what encloses a span in scope is in scope.
-/

namespace StatementOutline

/-- The span stops at or before the start of the other. -/
def Span.Before (s u : Span) : Prop :=
  s.stop ≤ u.start

instance (s u : Span) : Decidable (s.Before u) :=
  inferInstanceAs (Decidable (s.stop ≤ u.start))

/-- Spans that do not run backwards and follow each other one by one are in order altogether. -/
theorem Span.pairwise_before {α : Type} {f : α → Span} {l : List α}
    (hl : ∀ x ∈ l, (f x).start ≤ (f x).stop) (h : l.IsChain fun x y => (f x).Before (f y)) :
    l.Pairwise fun x y => (f x).Before (f y) := by
  induction l with
  | nil => exact .nil
  | cons x l ih =>
    have ih := ih (fun y hy => hl y (List.mem_cons_of_mem x hy)) h.of_cons
    refine List.pairwise_cons.2 ⟨fun y hy => ?_, ih⟩
    cases l with
    | nil => cases hy
    | cons z l =>
      have hxz : (f x).Before (f z) := h.rel
      rcases List.mem_cons.1 hy with rfl | hy
      · exact hxz
      · have hz := hl z (List.mem_cons_of_mem x List.mem_cons_self)
        have hzy : (f z).Before (f y) := (List.pairwise_cons.1 ih).1 y hy
        unfold Span.Before at *
        omega

theorem Span.encloses_trans {s u v : Span} (hsu : s.encloses u = true) (huv : u.encloses v = true) :
    s.encloses v = true := by
  rw [Span.encloses_iff] at *
  omega

theorem Span.inScope_of_encloses {s u range : Span} (hsu : s.encloses u = true)
    (hu : u.inScope range = true) : s.inScope range = true := by
  rw [Span.encloses_iff] at hsu
  rw [Span.inScope_iff] at *
  omega

end StatementOutline
