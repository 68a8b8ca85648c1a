import Mathlib.Data.List.Basic

/-!
# Attempts

A program asks another party to do something, and if this is refused asks for something else. The
answers are a function of the request and of those before it, and the program keeps the list of its
requests.

`Vouched` : what such a program claims at the end is backed by its last request, which is the only
one that was accepted; it claims nothing if all were refused. The rules for `Tries` follow the
program : a request with what is done if it is refused, one program after another, and what is
looked at meanwhile.
-/

namespace LlmNotch

variable {κ τ α β : Type}

abbrev Attempting (κ : Type) := StateM (List κ)

/-- Ask for something. -/
def Attempting.ask (answers : List κ → κ → Bool) (call : κ) : Attempting κ Bool :=
  fun done => (answers done call, done ++ [call])

/-- The requests after `done`, all of them allowed, and the claim that they back. -/
inductive Vouched (answers : List κ → κ → Bool) (allowed : κ → Prop) (backs : κ → τ → Prop) :
    List κ → List κ → Option τ → Prop where
  | nothing (done : List κ) : Vouched answers allowed backs done [] none
  | accepted {done : List κ} {call : κ} {claim : τ} (haccepts : answers done call = true)
      (hallowed : allowed call) (hbacks : backs call claim) :
      Vouched answers allowed backs done [call] (some claim)
  | refused {done rest : List κ} {call : κ} {claim : Option τ}
      (hrefuses : answers done call = false) (hallowed : allowed call)
      (hrest : Vouched answers allowed backs (done ++ [call]) rest claim) :
      Vouched answers allowed backs done (call :: rest) claim

variable {answers : List κ → κ → Bool} {allowed : κ → Prop} {backs : κ → τ → Prop}
  {claim : α → Option τ}

/-- After requests that were all refused. -/
theorem Vouched.append {done tried more : List κ} {result : Option τ}
    (h : Vouched answers allowed backs done tried none)
    (hmore : Vouched answers allowed backs (done ++ tried) more result) :
    Vouched answers allowed backs done (tried ++ more) result := by
  generalize hnone : (none : Option τ) = claimed at h
  induction h with
  | nothing done => rwa [List.append_nil] at hmore
  | accepted => cases hnone
  | refused hrefuses hallowed _ ih =>
    refine .refused hrefuses hallowed (ih ?_ hnone)
    rwa [List.append_assoc]

theorem Vouched.mono {wider : κ → Prop} {done tried : List κ} {result : Option τ}
    (h : Vouched answers allowed backs done tried result)
    (hallowed : ∀ call, allowed call → wider call) :
    Vouched answers wider backs done tried result := by
  induction h with
  | nothing done => exact .nothing done
  | accepted haccepts hcall hbacks => exact .accepted haccepts (hallowed _ hcall) hbacks
  | refused hrefuses hcall _ ih => exact .refused hrefuses (hallowed _ hcall) ih

/-- Whatever was asked before, the claim about the result is vouched for. -/
def Tries (answers : List κ → κ → Bool) (allowed : κ → Prop) (backs : κ → τ → Prop)
    (m : Attempting κ α) (claim : α → Option τ) : Prop :=
  ∀ done, ∃ tried, (m done).2 = done ++ tried ∧
    Vouched answers allowed backs done tried (claim (m done).1)

namespace Tries

theorem pure {a : α} (h : claim a = none) :
    Tries answers allowed backs (Pure.pure a : Attempting κ α) claim := by
  intro done
  refine ⟨[], (List.append_nil done).symm, ?_⟩
  have hclaim : claim ((Pure.pure a : Attempting κ α) done).1 = none := h
  rw [hclaim]
  exact .nothing done

theorem request {call : κ} {yes : α} {no : Attempting κ α} {tier : τ} (hallowed : allowed call)
    (hyes : claim yes = some tier) (hbacks : backs call tier)
    (hno : Tries answers allowed backs no claim) :
    Tries answers allowed backs
      (Attempting.ask answers call >>= fun b => if b then Pure.pure yes else no) claim := by
  intro done
  have hrun : (Attempting.ask answers call >>= fun b => if b then Pure.pure yes else no) done =
      (if answers done call then Pure.pure yes else no) (done ++ [call]) := rfl
  rw [hrun]
  cases hanswer : answers done call with
  | true =>
    refine ⟨[call], rfl, ?_⟩
    have hclaim : claim ((Pure.pure yes : Attempting κ α) (done ++ [call])).1 = some tier := hyes
    rw [if_pos rfl, hclaim]
    exact .accepted hanswer hallowed hbacks
  | false =>
    rw [if_neg Bool.false_ne_true]
    obtain ⟨tried, hafter, hvouched⟩ := hno (done ++ [call])
    refine ⟨call :: tried, ?_, .refused hanswer hallowed hvouched⟩
    rw [hafter, List.append_assoc]
    rfl

/-- A claim is kept to the end, and without one the next program runs. -/
theorem bind {m : Attempting κ β} {f : β → Attempting κ α} {first : β → Option τ}
    (hm : Tries answers allowed backs m first)
    (hsome : ∀ b tier, first b = some tier → ∃ a, f b = Pure.pure a ∧ claim a = some tier)
    (hnone : ∀ b, first b = none → Tries answers allowed backs (f b) claim) :
    Tries answers allowed backs (m >>= f) claim := by
  intro done
  have hrun : (m >>= f) done = f (m done).1 (m done).2 := rfl
  obtain ⟨tried, hafter, hvouched⟩ := hm done
  rw [hrun, hafter]
  cases hfirst : first (m done).1 with
  | some tier =>
    obtain ⟨a, hf, hclaim⟩ := hsome _ tier hfirst
    rw [hfirst] at hvouched
    refine ⟨tried, by rw [hf]; rfl, ?_⟩
    have hresult : claim ((Pure.pure a : Attempting κ α) (done ++ tried)).1 = some tier := hclaim
    rw [hf, hresult]
    exact hvouched
  | none =>
    rw [hfirst] at hvouched
    obtain ⟨more, hlast, hmore⟩ := hnone _ hfirst (done ++ tried)
    refine ⟨tried ++ more, ?_, hvouched.append hmore⟩
    rw [hlast, List.append_assoc]

/-- The result of a program is only put into other words. -/
theorem map {m : Attempting κ β} {f : β → α} {first : β → Option τ}
    (hm : Tries answers allowed backs m first) (hclaim : ∀ b, claim (f b) = first b) :
    Tries answers allowed backs (f <$> m) claim := by
  intro done
  obtain ⟨tried, hafter, hvouched⟩ := hm done
  refine ⟨tried, hafter, ?_⟩
  have hresult : claim ((f <$> m) done).1 = first (m done).1 := hclaim (m done).1
  rw [hresult]
  exact hvouched

theorem mono {m : Attempting κ α} {wider : κ → Prop} (h : Tries answers allowed backs m claim)
    (hallowed : ∀ call, allowed call → wider call) : Tries answers wider backs m claim := by
  intro done
  obtain ⟨tried, hafter, hvouched⟩ := h done
  exact ⟨tried, hafter, hvouched.mono hallowed⟩

end Tries

/-! ## Programs that only look -/

/-- Nothing is asked for. -/
def LooksOnly (m : Attempting κ α) : Prop := ∀ done, (m done).2 = done

/-- What every result is. -/
def Ends (m : Attempting κ α) (P : α → Prop) : Prop := ∀ done, P (m done).1

theorem LooksOnly.pure (a : α) : LooksOnly (Pure.pure a : Attempting κ α) := fun _ => rfl

variable {m : Attempting κ β} {f : β → Attempting κ α} {P : β → Prop}

theorem LooksOnly.bind (hm : LooksOnly m) (hf : ∀ b, LooksOnly (f b)) : LooksOnly (m >>= f) := by
  intro done
  have hrun : (m >>= f) done = f (m done).1 (m done).2 := rfl
  rw [hrun, hf, hm]

theorem LooksOnly.map (hm : LooksOnly m) (f : β → α) : LooksOnly (f <$> m) :=
  fun done => hm done

theorem Ends.pure {P : α → Prop} {a : α} (h : P a) : Ends (Pure.pure a : Attempting κ α) P :=
  fun _ => h

theorem Ends.bind {Q : α → Prop} (hm : Ends m P) (hf : ∀ b, P b → Ends (f b) Q) :
    Ends (m >>= f) Q :=
  fun done => hf _ (hm done) _

theorem Ends.map {f : β → α} {Q : α → Prop} (hm : Ends m P) (hf : ∀ b, P b → Q (f b)) :
    Ends (f <$> m) Q :=
  fun done => hf _ (hm done)

/-- What was looked at decides how to go on. -/
theorem Tries.read (hlooks : LooksOnly m) (hm : Ends m P)
    (hf : ∀ b, P b → Tries answers allowed backs (f b) claim) :
    Tries answers allowed backs (m >>= f) claim := by
  intro done
  have hrun : (m >>= f) done = f (m done).1 (m done).2 := rfl
  rw [hrun, hlooks]
  exact hf _ (hm done) done

end LlmNotch
