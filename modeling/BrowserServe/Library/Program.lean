import BrowserServe.Library.Transition

namespace BrowserServe.Library
set_option autoImplicit true

/-- Code that has its value, or asks its host for an operation and goes on with the answer. -/
inductive Program (Op : Type) (Answer : Op → Type) (α : Type) where
  | done (value : α)
  | perform (op : Op) (resume : Answer op → Program Op Answer α)

/-- What an operation does to a host, and what becomes of one whose caller is dropped while it
waits. -/
structure Host (Op : Type) (Answer : Op → Type) (σ : Type) where
  does : σ → (op : Op) → Answer op → σ → Prop
  drops : σ → Op → σ → Prop

variable {Op : Type} {Answer : Op → Type}

/-- A host that answers in any way, and of which books are kept. Where a run of it is dropped is
any moment of the run. -/
def Host.recorder (note : σ → (op : Op) → Answer op → σ) : Host Op Answer σ where
  does s op answer t := t = note s op answer
  drops s _ t := t = s

namespace Program

def bind : Program Op Answer α → (α → Program Op Answer β) → Program Op Answer β
  | done a, f => f a
  | perform op resume, f => perform op fun answer => (resume answer).bind f

instance : Monad (Program Op Answer) where
  pure := done
  bind := bind

def ask (op : Op) : Program Op Answer (Answer op) := perform op done

/-- The operation that the code stands before. -/
def next : Program Op Answer α → Option Op
  | done _ => none
  | perform op _ => some op

/-- A run of the code to its value, or to the operation at which it is dropped. -/
inductive Runs (H : Host Op Answer σ) : Program Op Answer α → σ → Option α → σ → Prop
  | done : Runs H (done a) s (some a) s
  | perform (h : H.does s op answer t) (hrest : Runs H (resume answer) t r u) :
      Runs H (perform op resume) s r u
  | dropped (h : H.drops s op t) : Runs H (perform op resume) s none t

/-- `Q` holds of the value that the code ends with, and `D` wherever it is dropped. -/
def Ends (H : Host Op Answer σ) (D : σ → Prop) :
    Program Op Answer α → (α → σ → Prop) → σ → Prop
  | done a, Q, s => Q a s
  | perform op resume, Q, s =>
    (∀ t, H.drops s op t → D t) ∧ ∀ answer t, H.does s op answer t → (resume answer).Ends H D Q t

/-- Code that asks only for what is allowed, whatever it is told of what it can be told. -/
def Asks (allowed : Op → Prop) (told : (op : Op) → Answer op → Prop) :
    Program Op Answer α → Prop
  | done _ => True
  | perform op resume => allowed op ∧ ∀ answer, told op answer → (resume answer).Asks allowed told

/-- Code that asks only for what is allowed, and that goes on with the operation that an answer
calls for, where it calls for one. -/
def Heeds (allowed : Op → Prop) (told : (op : Op) → Answer op → Prop)
    (calls : (op : Op) → Answer op → Option Op) : Program Op Answer α → Prop
  | done _ => True
  | perform op resume => allowed op ∧ ∀ answer, told op answer →
    (∀ op', calls op answer = some op' → (resume answer).next = some op') ∧
      (resume answer).Heeds allowed told calls

/-- What is left of the code after some of its operations. -/
inductive Goes (H : Host Op Answer σ) :
    Program Op Answer α → σ → Program Op Answer α → σ → Prop
  | refl : Goes H p s p s
  | step {op : Op} {answer : Answer op} {resume : Answer op → Program Op Answer α} {s t : σ}
      (h : H.does s op answer t) (hrest : Goes H (resume answer) t q u) :
      Goes H (perform op resume) s q u

variable {H : Host Op Answer σ} {D : σ → Prop} {allowed : Op → Prop}
  {told : (op : Op) → Answer op → Prop} {calls : (op : Op) → Answer op → Option Op}

theorem ends_bind {p : Program Op Answer α} {f : α → Program Op Answer β} {Q : β → σ → Prop} :
    (p >>= f).Ends H D Q s ↔ p.Ends H D (fun a t => (f a).Ends H D Q t) s := by
  induction p generalizing s with
  | done a => exact Iff.rfl
  | perform op resume ih =>
    constructor
    · rintro ⟨hdrop, hdone⟩
      exact ⟨hdrop, fun answer t h => (ih answer).1 (hdone answer t h)⟩
    · rintro ⟨hdrop, hdone⟩
      exact ⟨hdrop, fun answer t h => (ih answer).2 (hdone answer t h)⟩

/-- The rule for one operation of a host that answers in any way. -/
theorem Ends.recorded {note : σ → (op : Op) → Answer op → σ} {f : Answer op → Program Op Answer β}
    {Q : β → σ → Prop} (hD : D s)
    (h : ∀ answer, (f answer).Ends (.recorder note) D Q (note s op answer)) :
    (ask op >>= f).Ends (.recorder note) D Q s := by
  refine ⟨?_, ?_⟩
  · rintro _ rfl
    exact hD
  · rintro answer _ rfl
    exact h answer

theorem Ends.imp {p : Program Op Answer α} {Q R : α → σ → Prop} (h : p.Ends H D Q s)
    (himp : ∀ a t, Q a t → R a t) : p.Ends H D R s := by
  induction p generalizing s with
  | done a => exact himp a s h
  | perform op resume ih => exact ⟨h.1, fun answer t hdoes => ih answer (h.2 answer t hdoes)⟩

/-- The rule for a sequence: what the first part ends with is where the second part starts. -/
theorem Ends.bind {p : Program Op Answer α} {f : α → Program Op Answer β} {Q : α → σ → Prop}
    {R : β → σ → Prop} (h : p.Ends H D Q s) (hrest : ∀ a t, Q a t → (f a).Ends H D R t) :
    (p >>= f).Ends H D R s :=
  ends_bind.2 (h.imp hrest)

/-- What has been shown of the code holds of each of its runs. -/
theorem Runs.ends {p : Program Op Answer α} (h : p.Runs H s r t) {Q : α → σ → Prop}
    (hends : p.Ends H D Q s) : r.elim (D t) fun a => Q a t := by
  induction h with
  | done => exact hends
  | perform hdoes _ ih => exact ih (hends.2 _ _ hdoes)
  | dropped hdrop => exact hends.1 _ hdrop

theorem Runs.goesOn {op : Op} {resume : Answer op → Program Op Answer α} (answer : Answer op)
    (h : H.does s op answer t) (hrest : (resume answer).Runs H t r u) :
    (Program.perform op resume).Runs H s r u :=
  .perform h hrest

theorem Goes.goesOn {op : Op} {resume : Answer op → Program Op Answer α} (answer : Answer op)
    (h : H.does s op answer t) (hrest : (resume answer).Goes H t q u) :
    (Program.perform op resume).Goes H s q u :=
  .step h hrest

theorem ends_of_forall {p : Program Op Answer α} {Q : α → σ → Prop} (hD : ∀ t, D t)
    (hQ : ∀ a t, Q a t) : p.Ends H D Q s := by
  induction p generalizing s with
  | done a => exact hQ a s
  | perform op resume ih => exact ⟨fun t _ => hD t, fun answer t _ => ih answer⟩

theorem asks_bind {p : Program Op Answer α} {f : α → Program Op Answer β}
    (h : p.Asks allowed told) (hrest : ∀ a, (f a).Asks allowed told) :
    (p >>= f).Asks allowed told := by
  induction p with
  | done a => exact hrest a
  | perform op resume ih => exact ⟨h.1, fun answer htold => ih answer (h.2 answer htold)⟩

theorem asks_of_bind {p : Program Op Answer α} {f : α → Program Op Answer β}
    (h : (p >>= f).Asks allowed told) : p.Asks allowed told := by
  induction p with
  | done a => trivial
  | perform op resume ih => exact ⟨h.1, fun answer htold => ih answer (h.2 answer htold)⟩

theorem asks_ask (h : allowed op) : (ask op : Program Op Answer _).Asks allowed told :=
  ⟨h, fun _ _ => trivial⟩

theorem asks_pure : (pure a : Program Op Answer α).Asks allowed told := trivial

theorem next_bind {p : Program Op Answer α} {f : α → Program Op Answer β} {op : Op}
    (h : p.next = some op) : (p >>= f).next = some op := by
  cases p with
  | done a => cases h
  | perform op' resume => exact h

theorem heeds_bind {p : Program Op Answer α} {f : α → Program Op Answer β}
    (h : p.Heeds allowed told calls) (hrest : ∀ a, (f a).Heeds allowed told calls) :
    (p >>= f).Heeds allowed told calls := by
  induction p with
  | done a => exact hrest a
  | perform op resume ih =>
    refine ⟨h.1, fun answer htold => ?_⟩
    obtain ⟨hnext, hresume⟩ := h.2 answer htold
    exact ⟨fun op' hcalls => next_bind (hnext op' hcalls), ih answer hresume⟩

theorem heeds_pure : (pure a : Program Op Answer α).Heeds allowed told calls := trivial

/-- Code that asks for nothing whose answer calls for anything. -/
theorem Asks.heeds {p : Program Op Answer α} {quiet : Op → Prop} (h : p.Asks quiet told)
    (hquiet : ∀ op, quiet op → allowed op ∧ ∀ answer, calls op answer = none) :
    p.Heeds allowed told calls := by
  induction p with
  | done a => trivial
  | perform op resume ih =>
    obtain ⟨hallowed, hcalls⟩ := hquiet op h.1
    refine ⟨hallowed, fun answer htold => ⟨?_, ih answer (h.2 answer htold)⟩⟩
    intro op' hop'
    rw [hcalls answer] at hop'
    cases hop'

/-- The rule for code that asks only for what keeps an invariant. -/
theorem Asks.ends {p : Program Op Answer α} {I : σ → Prop} (h : p.Asks allowed told) (hs : I s)
    (hdoes : ∀ s op answer t, I s → allowed op → H.does s op answer t → I t ∧ told op answer)
    (hdrops : ∀ s op t, I s → allowed op → H.drops s op t → D t) :
    p.Ends H D (fun _ t => I t) s := by
  induction p generalizing s with
  | done a => exact hs
  | perform op resume ih =>
    obtain ⟨hallowed, hresume⟩ := h
    refine ⟨fun t hdrop => hdrops s op t hs hallowed hdrop, ?_⟩
    intro answer t hdo
    obtain ⟨ht, htold⟩ := hdoes s op answer t hs hallowed hdo
    exact ih answer (hresume answer htold) ht

end Program

/-- Calls that run side by side on one host; one that was dropped is gone. -/
structure Calls (Op : Type) (Answer : Op → Type) (α σ : Type) where
  host : σ
  tasks : List (Option (Program Op Answer α))

namespace Calls

/-- The operation that a call stands before. -/
def next (s : Calls Op Answer α σ) (i : Nat) : Option Op := s.tasks[i]?.join.bind Program.next

/-- A call is made, goes one operation further, or is dropped. -/
inductive Step (H : Host Op Answer σ) (made : Program Op Answer α → Prop) :
    Calls Op Answer α σ → Nat → Calls Op Answer α σ → Prop
  | call (hmade : made p) : Step H made s s.tasks.length { s with tasks := s.tasks ++ [some p] }
  | goesOn (htask : s.tasks[i]? = some (some (.perform op resume)))
      (h : H.does s.host op answer t) : Step H made s i ⟨t, s.tasks.set i (some (resume answer))⟩
  | dropped (htask : s.tasks[i]? = some (some (.perform op resume))) (h : H.drops s.host op t) :
      Step H made s i ⟨t, s.tasks.set i none⟩

def system (H : Host Op Answer σ) (made : Program Op Answer α → Prop) (init : σ → Prop) :
    System (Calls Op Answer α σ) Nat where
  init s := init s.host ∧ s.tasks = []
  step := Step H made

/-- Every call that is still there has a property. -/
def Each (s : Calls Op Answer α σ) (P : Program Op Answer α → Prop) : Prop :=
  ∀ (i : Nat) (p : Program Op Answer α), s.tasks[i]? = some (some p) → P p

variable {H : Host Op Answer σ} {made P : Program Op Answer α → Prop} {init I : σ → Prop}
  {s t : Calls Op Answer α σ}

theorem Each.set (h : s.Each P) {task : Option (Program Op Answer α)}
    (htask : ∀ p, task = some p → P p) (i : Nat) (t : σ) : Each ⟨t, s.tasks.set i task⟩ P := by
  intro j p hp
  by_cases hij : i = j
  · subst hij
    by_cases hlt : i < s.tasks.length
    · rw [List.getElem?_set_self hlt] at hp
      exact htask p (Option.some.inj hp)
    · rw [List.getElem?_eq_none (by simpa using hlt)] at hp
      cases hp
  · rw [List.getElem?_set_ne hij] at hp
    exact h j p hp

theorem Each.append (h : s.Each P) (hp : P p) : Each { s with tasks := s.tasks ++ [some p] } P := by
  intro j q hq
  rw [List.getElem?_append] at hq
  split at hq
  · exact h j q hq
  · rw [List.getElem?_singleton] at hq
    split at hq
    · cases hq
      exact hp
    · cases hq

/-- The rule for calls side by side: what every operation preserves that a call can stand before
holds throughout. -/
theorem invariant (h : (system H made init).Reachable s) (hinit : ∀ s, init s → I s)
    (hmade : ∀ p, made p → P p)
    (hdoes : ∀ s op resume answer t, I s → P (.perform op resume) → H.does s op answer t →
      I t ∧ P (resume answer))
    (hdrops : ∀ s op resume t, I s → P (.perform op resume) → H.drops s op t → I t) :
    I s.host ∧ s.Each P := by
  apply System.Reachable.invariant h
  · rintro s ⟨hhost, htasks⟩
    refine ⟨hinit _ hhost, ?_⟩
    intro i p hp
    rw [htasks] at hp
    cases hp
  · rintro s i t _ ⟨hI, heach⟩ hstep
    cases hstep with
    | call hcall => exact ⟨hI, heach.append (hmade _ hcall)⟩
    | goesOn htask hd =>
      obtain ⟨hI', hP⟩ := hdoes _ _ _ _ _ hI (heach _ _ htask) hd
      refine ⟨hI', heach.set ?_ _ _⟩
      rintro p ⟨⟩
      exact hP
    | dropped htask hd =>
      refine ⟨hdrops _ _ _ _ hI (heach _ _ htask) hd, heach.set ?_ _ _⟩
      rintro p ⟨⟩

theorem next_eq_some {op : Op} : s.next i = some op ↔
    ∃ resume, s.tasks[i]? = some (some (.perform op resume)) := by
  unfold next
  constructor
  · intro h
    obtain ⟨p, hp, hnext⟩ := Option.bind_eq_some_iff.1 h
    cases p with
    | done a => cases hnext
    | perform op' resume =>
      cases hnext
      exact ⟨resume, Option.join_eq_some_iff.1 hp⟩
  · rintro ⟨resume, htask⟩
    rw [htask]
    rfl

/-- A call that stands before an operation at which none is dropped does it in its next step. -/
theorem Step.next (h : Step H made s i t) {op : Op} (hnext : s.next j = some op)
    (hdrops : ∀ u v, ¬H.drops u op v) :
    (i = j ∧ ∃ answer, H.does s.host op answer t.host) ∨ (i ≠ j ∧ t.next j = some op) := by
  obtain ⟨resume, htask⟩ := next_eq_some.1 hnext
  have hlt := (List.getElem?_eq_some_iff.1 htask).1
  have hother : ∀ (task : Option (Program Op Answer α)) (host : σ), i ≠ j →
      Calls.next ⟨host, s.tasks.set i task⟩ j = some op := by
    intro task host hij
    apply next_eq_some.2
    refine ⟨resume, ?_⟩
    rw [List.getElem?_set_ne hij]
    exact htask
  cases h with
  | call hcall =>
    refine .inr ⟨(Nat.ne_of_lt hlt).symm, next_eq_some.2 ⟨resume, ?_⟩⟩
    rw [List.getElem?_append_left hlt]
    exact htask
  | goesOn htask' hd =>
    by_cases hij : i = j
    · subst hij
      rw [htask] at htask'
      cases htask'
      exact .inl ⟨rfl, _, hd⟩
    · exact .inr ⟨hij, hother _ _ hij⟩
  | dropped htask' hd =>
    by_cases hij : i = j
    · subst hij
      rw [htask] at htask'
      cases htask'
      exact absurd hd (hdrops _ _)
    · exact .inr ⟨hij, hother _ _ hij⟩

/-- A call made and run beside what the others have come to. -/
theorem reachable_calls {p q : Program Op Answer α} {a b : σ}
    {tasks : List (Option (Program Op Answer α))} (hmade : made p)
    (hs : (system H made init).Reachable ⟨a, tasks⟩) (h : p.Goes H a q b) :
    (system H made init).Reachable ⟨b, tasks ++ [some q]⟩ := by
  have hcall : Step H made ⟨a, tasks⟩ tasks.length ⟨a, tasks ++ [some p]⟩ := .call hmade
  have hstart : (system H made init).Reachable ⟨a, tasks ++ [some p]⟩ := .step hs hcall
  clear hmade hs hcall
  induction h with
  | refl => exact hstart
  | @step q b op answer resume a t hd _ ih =>
    have hgoes : Step H made ⟨a, tasks ++ [some (Program.perform op resume)]⟩ tasks.length _ :=
      .goesOn List.getElem?_concat_length hd
    rw [List.set_append_right _ _ (Nat.le_refl _), Nat.sub_self] at hgoes
    exact ih (.step hstart hgoes)

theorem reachable_goes {p q : Program Op Answer α} {a b : σ} (hmade : made p) (hinit : init a)
    (h : p.Goes H a q b) : (system H made init).Reachable ⟨b, [some q]⟩ :=
  reachable_calls hmade (.init ⟨hinit, rfl⟩) h

end Calls

end BrowserServe.Library
