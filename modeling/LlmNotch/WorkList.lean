import Mathlib.Data.Finset.Card
import Mathlib.Logic.Relation

/-!
# Search with a work list

A search over a graph keeps the set of vertices it has seen and a stack of those to look at. Only
neighbours that are vertices of the graph are pushed, so the search ends, on cycles too. It finds
what is reachable from its start (`mem_search_iff`).
-/

namespace LlmNotch

namespace WorkList

variable {α : Type} [DecidableEq α] {nodes : List α} {next : α → List α}

/-- The neighbours that are vertices. -/
def pushed (nodes : List α) (next : α → List α) (a : α) : List α :=
  (next a).filter (· ∈ nodes)

theorem unseen_ssubset {a : α} {seen : Finset α} {rest : List α} (h : a ∉ seen) :
    (nodes.toFinset ∪ ((pushed nodes next a).reverse ++ rest).toFinset) \ insert a seen ⊂
      (nodes.toFinset ∪ (a :: rest).toFinset) \ seen := by
  refine Finset.ssubset_iff_of_subset ?_ |>.2 ⟨a, ?_, ?_⟩
  · intro x hx
    simp only [pushed, Finset.mem_sdiff, Finset.mem_union, List.mem_toFinset, List.mem_append,
      List.mem_reverse, List.mem_filter, decide_eq_true_eq, List.mem_cons,
      Finset.mem_insert] at hx ⊢
    tauto
  · simp [h]
  · simp

theorem unseen_subset (nodes : List α) (a : α) (seen : Finset α) (rest : List α) :
    (nodes.toFinset ∪ rest.toFinset) \ seen ⊆ (nodes.toFinset ∪ (a :: rest).toFinset) \ seen := by
  intro x hx
  simp only [Finset.mem_sdiff, Finset.mem_union, List.mem_toFinset, List.mem_cons] at hx ⊢
  tauto

/-- The loop : the top of the stack is looked at unless it was seen before, and its neighbours are
pushed one after the other. -/
def loop (nodes : List α) (next : α → List α) (seen : Finset α) (stack : List α) : Finset α :=
  match stack with
  | [] => seen
  | a :: rest =>
    if a ∈ seen then loop nodes next seen rest
    else loop nodes next (insert a seen) ((pushed nodes next a).reverse ++ rest)
termination_by (((nodes.toFinset ∪ stack.toFinset) \ seen).card, stack.length)
decreasing_by
  · rcases (Finset.card_le_card (unseen_subset nodes a seen rest)).lt_or_eq with hless | heq
    · exact Prod.Lex.left _ _ hless
    · exact Prod.lex_def.2 (.inr ⟨heq, Nat.lt_succ_self _⟩)
  · rename_i hnew
    exact Prod.Lex.left _ _ (Finset.card_lt_card (unseen_ssubset hnew))

def search (nodes : List α) (next : α → List α) (start : α) : Finset α :=
  loop nodes next ∅ [start]

/-! ## What is found -/

/-- One vertex is a neighbour of the other. -/
def Edge (nodes : List α) (next : α → List α) (a b : α) : Prop :=
  b ∈ pushed nodes next a

theorem seen_subset_loop (seen : Finset α) (stack : List α) :
    seen ⊆ loop nodes next seen stack := by
  fun_induction loop nodes next seen stack with
  | case1 seen => exact Finset.Subset.refl seen
  | case2 seen a rest hseen ih => exact ih
  | case3 seen a rest hnew ih => exact (Finset.subset_insert a seen).trans ih

theorem stack_subset_loop (seen : Finset α) (stack : List α) :
    ∀ a ∈ stack, a ∈ loop nodes next seen stack := by
  fun_induction loop nodes next seen stack with
  | case1 seen => simp
  | case2 seen a rest hseen ih =>
    exact List.forall_mem_cons.2 ⟨seen_subset_loop seen rest hseen, ih⟩
  | case3 seen a rest hnew ih =>
    refine List.forall_mem_cons.2 ⟨seen_subset_loop _ _ (Finset.mem_insert_self a seen), ?_⟩
    exact fun b hb => ih b (List.mem_append_right _ hb)

/-- What is found is reachable from the stack, if it was not seen before. -/
theorem reachable_of_mem_loop (seen : Finset α) (stack : List α) {x : α}
    (h : x ∈ loop nodes next seen stack) :
    x ∈ seen ∨ ∃ a ∈ stack, Relation.ReflTransGen (Edge nodes next) a x := by
  fun_induction loop nodes next seen stack with
  | case1 seen => exact .inl h
  | case2 seen a rest hseen ih =>
    obtain hx | ⟨b, hb, hpath⟩ := ih h
    · exact .inl hx
    · exact .inr ⟨b, List.mem_cons_of_mem a hb, hpath⟩
  | case3 seen a rest hnew ih =>
    obtain hx | ⟨b, hb, hpath⟩ := ih h
    · obtain rfl | hx := Finset.mem_insert.1 hx
      · exact .inr ⟨x, List.mem_cons_self, .refl⟩
      · exact .inl hx
    · obtain hb | hb := List.mem_append.1 hb
      · exact .inr ⟨a, List.mem_cons_self, .head (List.mem_reverse.1 hb) hpath⟩
      · exact .inr ⟨b, List.mem_cons_of_mem a hb, hpath⟩

/-- The neighbours of what was seen are seen or on the stack : then the loop leaves no neighbour
out. -/
theorem loop_closed (seen : Finset α) (stack : List α)
    (hclosed : ∀ a ∈ seen, ∀ b, Edge nodes next a b → b ∈ seen ∨ b ∈ stack) :
    ∀ a ∈ loop nodes next seen stack, ∀ b, Edge nodes next a b →
      b ∈ loop nodes next seen stack := by
  fun_induction loop nodes next seen stack with
  | case1 seen => exact fun a ha b hb => (hclosed a ha b hb).resolve_right List.not_mem_nil
  | case2 seen a rest hseen ih =>
    refine ih fun c hc b hb => ?_
    obtain hold | hstack := hclosed c hc b hb
    · exact .inl hold
    · obtain rfl | hrest := List.mem_cons.1 hstack
      · exact .inl hseen
      · exact .inr hrest
  | case3 seen a rest hnew ih =>
    refine ih fun c hc b hb => ?_
    obtain rfl | hold := Finset.mem_insert.1 hc
    · exact .inr (List.mem_append_left _ (List.mem_reverse.2 hb))
    · obtain hold | hstack := hclosed c hold b hb
      · exact .inl (Finset.mem_insert_of_mem hold)
      · obtain rfl | hrest := List.mem_cons.1 hstack
        · exact .inl (Finset.mem_insert_self b seen)
        · exact .inr (List.mem_append_right _ hrest)

/-- The search finds what is reachable. -/
theorem mem_search_iff {start x : α} :
    x ∈ search nodes next start ↔ Relation.ReflTransGen (Edge nodes next) start x := by
  constructor
  · intro h
    obtain hx | ⟨a, ha, hpath⟩ := reachable_of_mem_loop ∅ [start] h
    · exact absurd hx (Finset.notMem_empty x)
    · rwa [List.mem_singleton.1 ha] at hpath
  · intro h
    induction h with
    | refl => exact stack_subset_loop ∅ [start] start List.mem_cons_self
    | tail _ hedge ih =>
      exact loop_closed ∅ [start] (fun a ha => absurd ha (Finset.notMem_empty a)) _ ih _ hedge

end WorkList

end LlmNotch
