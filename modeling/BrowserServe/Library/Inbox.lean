import BrowserServe.Library.Async

namespace BrowserServe.Library
set_option autoImplicit true

/-- The part of a state that holds what has come and is not taken yet. -/
structure Inbox (σ δ : Type) where
  get : σ → List δ
  put : List δ → σ → σ
  get_put : ∀ ds s, get (put ds s) = ds
  put_get : ∀ s, put (get s) s = s
  put_put : ∀ ds es s, put ds (put es s) = put ds s

namespace Inbox
variable {σ δ ε ε' α β : Type} {box : Inbox σ δ} {x : Async σ ε α} {s t : σ}

/-- A future that takes what it needs from the front, and waits only when it has taken all. -/
def Consumes (box : Inbox σ δ) (x : Async σ ε α) : Prop := ∀ s,
  (x s).1 = .error .waiting ∧ box.get (x s).2 = [] ∨
    ∃ front, box.get s = front ++ box.get (x s).2 ∧
      ∀ more, x (box.put (front ++ more) s) = ((x s).1, box.put more (x s).2)

theorem Consumes.of_still (h : ∀ ds s, x (box.put ds s) = ((x s).1, box.put ds (x s).2))
    (hget : ∀ s, box.get (x s).2 = box.get s) : box.Consumes x := by
  intro s
  refine .inr ⟨[], (hget s).symm, ?_⟩
  intro more
  exact h more s

theorem consumes_pure (a : α) : box.Consumes (pure a : Async σ ε α) :=
  .of_still (fun _ _ => rfl) (fun _ => rfl)

theorem consumes_throw (e : ε) : box.Consumes (Async.throw e : Async σ ε α) :=
  .of_still (fun _ _ => rfl) (fun _ => rfl)

theorem Consumes.bind {f : α → Async σ ε β} (hx : box.Consumes x) (hf : ∀ a, box.Consumes (f a)) :
    box.Consumes (x >>= f) := by
  intro s
  cases hrun : x s with
  | mk r t =>
    have hfirst := hx s
    rw [hrun] at hfirst
    cases r with
    | error stop =>
      rw [Async.bind_of_error hrun]
      rcases hfirst with hwait | ⟨front, hfront, hmore⟩
      · exact .inl ⟨by rw [Except.error.inj hwait.1], hwait.2⟩
      · refine .inr ⟨front, hfront, ?_⟩
        intro more
        exact Async.bind_of_error (hmore more)
    | ok a =>
      rw [Async.bind_of_ok hrun]
      rcases hfirst with ⟨hwait, _⟩ | ⟨front, hfront, hmore⟩
      · cases hwait
      · rcases hf a t with hwait | ⟨front', hfront', hmore'⟩
        · exact .inl hwait
        · refine .inr ⟨front ++ front', ?_, ?_⟩
          · rw [hfront, hfront', List.append_assoc]
          · intro more
            have hnext : x (box.put (front ++ front' ++ more) s) =
                (.ok a, box.put (front' ++ more) t) := by
              rw [List.append_assoc, hmore]
            rw [Async.bind_of_ok hnext, hmore']

theorem Consumes.mapErr (hx : box.Consumes x) (f : ε → ε') : box.Consumes (x.mapErr f) := by
  intro s
  cases hrun : x s with
  | mk r t =>
    have hfirst := hx s
    rw [hrun] at hfirst
    have hmap : ∀ u v, x u = (r, v) → x.mapErr f u = ((x.mapErr f s).1, v) := by
      intro u v huv
      unfold Async.mapErr
      rw [huv, hrun]
      cases r with
      | ok => rfl
      | error stop => cases stop <;> rfl
    have hsame : (x.mapErr f s).2 = t := by rw [hmap s t hrun]
    rw [hsame]
    rcases hfirst with ⟨hwait, hget⟩ | ⟨front, hfront, hmore⟩
    · refine .inl ⟨?_, hget⟩
      have hstop : r = .error .waiting := hwait
      unfold Async.mapErr
      rw [hrun, hstop]
    · refine .inr ⟨front, hfront, ?_⟩
      intro more
      exact hmap _ _ (hmore more)

/-- With more to come after it, a future that does not wait does the same. -/
theorem Consumes.more (h : box.Consumes x) (hrun : x s = (r, t)) (hr : r ≠ .error .waiting)
    (more : List δ) : x (box.put (box.get s ++ more) s) = (r, box.put (box.get t ++ more) t) := by
  have hcases := h s
  rw [hrun] at hcases
  rcases hcases with ⟨hwait, _⟩ | ⟨front, hfront, hmore⟩
  · exact absurd hwait hr
  · rw [hfront, List.append_assoc]
    exact hmore _

/-- A future that has waited and goes on with one thing more leaves nothing. -/
theorem Consumes.last (h : box.Consumes x) (hwait : (x s).1 = .error .waiting)
    (hrun : x (box.put (box.get s ++ [d]) s) = (r, t)) (hr : r ≠ .error .waiting) :
    box.get t = [] := by
  have hcases := h (box.put (box.get s ++ [d]) s)
  rw [hrun, box.get_put] at hcases
  rcases hcases with ⟨hwait', _⟩ | ⟨front, hfront, hmore⟩
  · exact absurd hwait' hr
  · rcases List.eq_nil_or_concat (box.get t) with hnil | ⟨left, last, hleft⟩
    · exact hnil
    · rw [hleft, List.concat_eq_append, ← List.append_assoc] at hfront
      have hinit := List.append_inj_left' hfront rfl
      have hsame := hmore left
      rw [box.put_put, ← hinit, box.put_get] at hsame
      rw [hsame] at hwait
      exact absurd hwait hr

theorem Consumes.mem (h : box.Consumes x) (hd : d ∈ box.get (x s).2) : d ∈ box.get s := by
  rcases h s with ⟨_, hnil⟩ | ⟨front, hfront, _⟩
  · rw [hnil] at hd
    cases hd
  · rw [hfront]
    exact List.mem_append_right front hd

/-- Takes one thing, or waits for it. -/
structure Receives (box : Inbox σ δ) (receive : Async σ ε β) : Prop where
  waits : ∀ s, box.get s = [] → receive s = (.error .waiting, s)
  takes : ∀ s d ds, box.get s = d :: ds → (receive s).1 ≠ .error .waiting ∧
    box.get (receive s).2 = ds ∧
      ∀ more, receive (box.put (d :: more) s) = ((receive s).1, box.put more (receive s).2)

/-- Receives until something makes it stop. -/
def scan (receive : Async σ ε β) (stop : β → Option (Except ε α)) : Nat → Async σ ε α
  | 0 => Async.wait
  | rounds + 1 => do
    let b ← receive
    match stop b with
    | some (.ok a) => return a
    | some (.error e) => Async.throw e
    | none => scan receive stop rounds

/-- A loop that has as many rounds as there are things to take, and one to wait in. -/
def whole (box : Inbox σ δ) (loop : Nat → Async σ ε α) : Async σ ε α := fun s =>
  loop ((box.get s).length + 1) s

theorem keeps_scan {f : σ → γ} {receive : Async σ ε β} (h : Async.Keeps f receive)
    (stop : β → Option (Except ε α)) (rounds : Nat) : Async.Keeps f (scan receive stop rounds) := by
  induction rounds with
  | zero => exact Async.keeps_wait f
  | succ rounds ih =>
    apply h.bind
    intro b
    cases stop b with
    | none => exact ih
    | some result =>
      cases result with
      | ok a => exact Async.keeps_pure f a
      | error e => exact Async.keeps_throw f e

theorem scan_spec {receive : Async σ ε β} (h : box.Receives receive)
    (stop : β → Option (Except ε α)) (hrounds : (box.get s).length < rounds) :
    ((scan receive stop rounds s).1 = .error .waiting ∧
        box.get (scan receive stop rounds s).2 = []) ∨
      ∃ front, box.get s = front ++ box.get (scan receive stop rounds s).2 ∧
        ∀ more rounds', front.length + more.length < rounds' →
          scan receive stop rounds' (box.put (front ++ more) s) =
            ((scan receive stop rounds s).1, box.put more (scan receive stop rounds s).2) := by
  induction rounds generalizing s with
  | zero => cases hrounds
  | succ rounds ih =>
    cases hget : box.get s with
    | nil =>
      rw [scan, Async.bind_of_error (h.waits s hget)]
      exact .inl ⟨rfl, hget⟩
    | cons d ds =>
      obtain ⟨hne, hleft, hmore⟩ := h.takes s d ds hget
      cases hrun : receive s with
      | mk r t =>
        rw [hrun] at hne hleft hmore
        cases r with
        | error e =>
          rw [scan, Async.bind_of_error hrun]
          refine .inr ⟨[d], by rw [hleft]; rfl, ?_⟩
          intro more rounds' hlt
          obtain ⟨rounds', rfl⟩ :=
            Nat.exists_eq_succ_of_ne_zero (Nat.ne_of_gt (Nat.zero_lt_of_lt hlt))
          rw [scan, List.singleton_append, Async.bind_of_error (hmore more)]
        | ok b =>
          rw [scan, Async.bind_of_ok hrun]
          cases hstop : stop b with
          | some result =>
            refine .inr ⟨[d], ?_, ?_⟩
            · cases result <;> (rw [List.singleton_append]; simp [hleft])
            · intro more rounds' hlt
              obtain ⟨rounds', rfl⟩ :=
                Nat.exists_eq_succ_of_ne_zero (Nat.ne_of_gt (Nat.zero_lt_of_lt hlt))
              rw [scan, List.singleton_append, Async.bind_of_ok (hmore more), hstop]
              cases result <;> rfl
          | none =>
            dsimp only
            have hlt : (box.get t).length < rounds := by
              rw [hleft]
              rw [hget, List.length_cons] at hrounds
              omega
            rcases ih hlt with hwait | ⟨front, hfront, hnext⟩
            · exact .inl hwait
            · refine .inr ⟨d :: front, ?_, ?_⟩
              · rw [List.cons_append, ← hfront, hleft]
              · intro more rounds' hlt'
                obtain ⟨rounds', rfl⟩ :=
                  Nat.exists_eq_succ_of_ne_zero (Nat.ne_of_gt (Nat.zero_lt_of_lt hlt'))
                rw [List.length_cons] at hlt'
                rw [scan, List.cons_append, Async.bind_of_ok (hmore _), hstop]
                exact hnext more rounds' (by omega)

theorem scan_consumes {receive : Async σ ε β} (h : box.Receives receive)
    (stop : β → Option (Except ε α)) : box.Consumes (box.whole (scan receive stop)) := by
  intro s
  rcases scan_spec h stop (Nat.lt_succ_self (box.get s).length) with hwait | ⟨front, hfront, hmore⟩
  · exact .inl hwait
  · refine .inr ⟨front, hfront, ?_⟩
    intro more
    rw [whole, box.get_put, List.length_append]
    exact hmore more _ (Nat.lt_succ_self _)

end Inbox
end BrowserServe.Library
