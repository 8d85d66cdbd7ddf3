import BrowserServe.ChromeLaunch

namespace BrowserServe.Chrome
set_option autoImplicit true

/-- In milliseconds. -/
def PROTOCOL_CLOSE_BUDGET : Nat := 2000
def REAP_BUDGET : Nat := 5000

structure TeardownReport where
  exitStatus : Option String
  graceful : Bool
  escalatedSigkill : Bool
  reaped : Bool
  deriving DecidableEq

/-- When a process exits by itself, and how long after `Browser.close` and each signal. -/
structure Reaction where
  alone : Option Nat
  onClose : Option Nat
  onTerm : Option Nat
  onKill : Option Nat

/-- The time since a teardown began, and when it sent what. -/
structure Sent where
  now : Nat
  closeAt : Option Nat
  termAt : Option Nat
  killAt : Option Nat

def after (sentAt delay : Option Nat) : Option Nat := sentAt.bind fun t => delay.map (t + ·)

/-- The times at which there is a reason to exit. -/
def Reaction.exits (r : Reaction) (s : Sent) : List Nat :=
  [r.alone, after s.closeAt r.onClose, after s.termAt r.onTerm, after s.killAt r.onKill].filterMap
    id

def Reaction.exitAt (r : Reaction) (s : Sent) : Option Nat := (r.exits s).min?

def Reaction.GoneBy (r : Reaction) (s : Sent) : Prop := ∃ exit ∈ r.exits s, exit ≤ s.now

instance (r : Reaction) (s : Sent) : Decidable (r.GoneBy s) :=
  inferInstanceAs (Decidable (∃ _ ∈ _, _))

/-- A browser as the leader of its group, and the status that waiting for it gives. -/
structure ProcessGroup where
  pid : Int
  pid_gt : 1 < pid
  leader : Reaction
  descendants : List Reaction
  exitStatus : Option String

namespace ProcessGroup

def members (group : ProcessGroup) : List Reaction := group.leader :: group.descendants

/-- Wait for the leader within a budget: the time at which it is reaped. -/
def wait (group : ProcessGroup) (s : Sent) (budget : Nat) : Option Sent :=
  ((group.leader.exitAt s).filter (· ≤ s.now + budget)).map fun exit =>
    { s with now := max s.now exit }

def termGroup (group : ProcessGroup) (s : Sent) : Sent :=
  if 1 < group.pid then { s with termAt := some s.now } else s

def forceKillGroup (group : ProcessGroup) (s : Sent) : Sent :=
  if 1 < group.pid then { s with killAt := some s.now } else s

def killStage (group : ProcessGroup) (s : Sent) : TeardownReport × Sent :=
  let s := group.forceKillGroup s
  match group.wait s REAP_BUDGET with
  | some s => (⟨group.exitStatus, false, true, true⟩, s)
  | none => (⟨none, false, true, false⟩, { s with now := s.now + REAP_BUDGET })

def termStage (group : ProcessGroup) (grace : Nat) (s : Sent) : TeardownReport × Sent :=
  let s := group.termGroup s
  match group.wait s grace with
  | some s => (⟨group.exitStatus, false, false, true⟩, s)
  | none => group.killStage { s with now := s.now + grace }

/-- `pipe` is whether the browser still has its pipe. -/
def teardown (group : ProcessGroup) (pipe : Bool) (grace : Nat) : TeardownReport × Sent :=
  if pipe then
    let s : Sent := ⟨0, some 0, none, none⟩
    match group.wait s PROTOCOL_CLOSE_BUDGET with
    | some s => (⟨group.exitStatus, true, false, true⟩, group.termGroup s)
    | none => group.termStage grace { s with now := s.now + PROTOCOL_CLOSE_BUDGET }
  else group.termStage grace ⟨0, none, none, none⟩

/-- Every member has exited or has been sent SIGKILL. -/
def Ended (group : ProcessGroup) (s : Sent) : Prop :=
  ∀ member ∈ group.members, member.GoneBy s ∨ s.killAt.isSome

/-- No descendant is still there at the time `exit`, with `s` sent by then. -/
def NoneOutlives (group : ProcessGroup) (s : Sent) (exit : Nat) : Prop :=
  ∀ descendant ∈ group.descendants, descendant.GoneBy { s with now := exit }

/-- A leader that exits within `grace` of SIGTERM is outlived by none. -/
def TermsLast (group : ProcessGroup) (grace : Nat) (s : Sent) : Prop :=
  ∀ exit, group.leader.exitAt { s with termAt := some s.now } = some exit →
    exit ≤ s.now + grace → group.NoneOutlives { s with termAt := some s.now } exit

/-- A leader that exits within the budget of `Browser.close` is outlived by none, though the others
get SIGTERM only then, and so is one that does not, but exits within `grace` of SIGTERM. -/
def LeaderLast (group : ProcessGroup) (pipe : Bool) (grace : Nat) : Prop :=
  let closed : Sent := ⟨0, some 0, none, none⟩
  if pipe then
    if group.leader.GoneBy { closed with now := PROTOCOL_CLOSE_BUDGET } then
      ∀ exit, group.leader.exitAt closed = some exit →
        group.NoneOutlives { closed with termAt := some exit } exit
    else group.TermsLast grace { closed with now := PROTOCOL_CLOSE_BUDGET }
  else group.TermsLast grace ⟨0, none, none, none⟩

end ProcessGroup

theorem Reaction.mem_exits {r : Reaction} {s : Sent} {exit : Nat} :
    exit ∈ r.exits s ↔ r.alone = some exit ∨ after s.closeAt r.onClose = some exit ∨
      after s.termAt r.onTerm = some exit ∨ after s.killAt r.onKill = some exit := by
  simp [exits, eq_comm]

theorem Reaction.exitAt_eq_some {r : Reaction} {s : Sent} {exit : Nat} :
    r.exitAt s = some exit ↔ exit ∈ r.exits s ∧ ∀ other ∈ r.exits s, exit ≤ other :=
  List.min?_eq_some_iff

theorem Reaction.goneBy_iff_exitAt {r : Reaction} {s : Sent} :
    r.GoneBy s ↔ ∃ exit, r.exitAt s = some exit ∧ exit ≤ s.now := by
  constructor
  · rintro ⟨other, hmem, hle⟩
    obtain ⟨exit, hexit⟩ := Option.isSome_iff_exists.mp (List.isSome_min?_of_mem hmem)
    exact ⟨exit, hexit, Nat.le_trans ((exitAt_eq_some.mp hexit).2 other hmem) hle⟩
  · rintro ⟨exit, hexit, hle⟩
    exact ⟨exit, (exitAt_eq_some.mp hexit).1, hle⟩

theorem after_le {sentAt delay : Option Nat} {exit start : Nat}
    (h : after sentAt delay = some exit) (hstart : ∀ t, sentAt = some t → start ≤ t) :
    start ≤ exit := by
  obtain ⟨t, ht, hdelay⟩ := Option.bind_eq_some_iff.mp h
  obtain ⟨d, _, rfl⟩ := Option.map_eq_some_iff.mp hdelay
  exact Nat.le_trans (hstart t ht) (Nat.le_add_right t d)

/-- SIGTERM gives no reason to exit before it is sent. -/
theorem Reaction.exits_term {r : Reaction} {s : Sent} {at' exit : Nat}
    (h : exit ∈ r.exits { s with termAt := some at' }) : exit ∈ r.exits s ∨ at' ≤ exit := by
  rw [mem_exits] at h ⊢
  rcases h with h | h | h | h
  · exact .inl (.inl h)
  · exact .inl (.inr (.inl h))
  · refine .inr (after_le h ?_)
    rintro t ⟨⟩
    exact Nat.le_refl _
  · exact .inl (.inr (.inr (.inr h)))

theorem Reaction.exits_of_term {r : Reaction} {s : Sent} {at' exit : Nat} (hterm : s.termAt = none)
    (h : exit ∈ r.exits s) : exit ∈ r.exits { s with termAt := some at' } := by
  rw [mem_exits, hterm] at h
  rw [mem_exits]
  rcases h with h | h | h | h
  · exact .inl h
  · exact .inr (.inl h)
  · cases h
  · exact .inr (.inr (.inr h))

namespace ProcessGroup
variable {group : ProcessGroup} {s t : Sent} {closeAt : Option Nat} {now budget grace exit : Nat}

@[simp] theorem termGroup_eq : group.termGroup s = { s with termAt := some s.now } :=
  if_pos group.pid_gt

@[simp] theorem forceKillGroup_eq : group.forceKillGroup s = { s with killAt := some s.now } :=
  if_pos group.pid_gt

theorem wait_eq_some : group.wait s budget = some t ↔
    ∃ exit, group.leader.exitAt s = some exit ∧ exit ≤ s.now + budget ∧
      t = { s with now := max s.now exit } := by
  rw [wait, Option.map_eq_some_iff]
  constructor
  · rintro ⟨exit, hexit, rfl⟩
    obtain ⟨hexit, hle⟩ := Option.filter_eq_some_iff.mp hexit
    exact ⟨exit, hexit, of_decide_eq_true hle, rfl⟩
  · rintro ⟨exit, hexit, hle, rfl⟩
    exact ⟨exit, Option.filter_eq_some_iff.mpr ⟨hexit, decide_eq_true hle⟩, rfl⟩

theorem ended_of_killAt (h : s.killAt.isSome) : group.Ended s := by
  intro member _
  exact .inr h

/-- Where SIGKILL has not been sent, it is the descendants that may still be there. -/
theorem ended_iff (hleader : group.leader.GoneBy s) (hkill : s.killAt = none) :
    group.Ended s ↔ group.NoneOutlives s s.now := by
  constructor
  · intro h descendant hmem
    cases h descendant (List.mem_cons_of_mem _ hmem) with
    | inl hgone => exact hgone
    | inr hsent => rw [hkill] at hsent; cases hsent
  · intro h member hmem
    cases List.mem_cons.mp hmem with
    | inl heq => exact .inl (heq ▸ hleader)
    | inr hmem => exact .inl (h member hmem)

theorem killStage_ended : group.Ended (group.killStage s).2 := by
  rw [killStage, forceKillGroup_eq]
  split
  · rename_i t hwait
    obtain ⟨exit, _, _, rfl⟩ := wait_eq_some.mp hwait
    exact ended_of_killAt rfl
  · exact ended_of_killAt rfl

theorem termStage_ended_iff
    (hnow : ∀ exit ∈ group.leader.exits ⟨now, closeAt, none, none⟩, now ≤ exit) :
    ((group.termStage grace ⟨now, closeAt, none, none⟩).1.reaped = true →
      group.Ended (group.termStage grace ⟨now, closeAt, none, none⟩).2) ↔
    group.TermsLast grace ⟨now, closeAt, none, none⟩ := by
  rw [termStage, termGroup_eq]
  split
  · rename_i t hwait
    obtain ⟨exit, hexit, hle, rfl⟩ := wait_eq_some.mp hwait
    obtain ⟨hmem, _⟩ := Reaction.exitAt_eq_some.mp hexit
    have hmax : max now exit = exit := by
      apply Nat.max_eq_right
      cases Reaction.exits_term hmem with
      | inl h => exact hnow exit h
      | inr h => exact h
    rw [hmax]
    have hgone : group.leader.GoneBy ⟨exit, closeAt, some now, none⟩ := ⟨exit, hmem, Nat.le_refl _⟩
    rw [ended_iff hgone rfl]
    constructor
    · intro h other hother _
      have heq : exit = other := Option.some.inj (hexit.symm.trans hother)
      exact heq ▸ h rfl
    · intro h _
      exact h exit hexit hle
  · rename_i hwait
    constructor
    · intro _ exit hexit hle
      have hsome := wait_eq_some.mpr ⟨exit, hexit, hle, rfl⟩
      rw [hwait] at hsome
      cases hsome
    · intro _ _
      exact killStage_ended

/-- Once the leader is reaped, the whole group is ended exactly when none outlives the leader
where that one exits before it is killed. -/
theorem teardown_ends_group_iff (group : ProcessGroup) (pipe : Bool) (grace : Nat) :
    ((group.teardown pipe grace).1.reaped = true → group.Ended (group.teardown pipe grace).2) ↔
      group.LeaderLast pipe grace := by
  cases pipe with
  | false => exact termStage_ended_iff fun exit _ => Nat.zero_le exit
  | true =>
    simp only [teardown, LeaderLast, ↓reduceIte]
    split
    · rename_i t hwait
      obtain ⟨exit, hexit, hle, rfl⟩ := wait_eq_some.mp hwait
      obtain ⟨hmem, _⟩ := Reaction.exitAt_eq_some.mp hexit
      have hzero : max 0 exit = exit := Nat.zero_max exit
      have hgone : group.leader.GoneBy ⟨exit, some 0, some exit, none⟩ :=
        ⟨exit, Reaction.exits_of_term rfl hmem, Nat.le_refl _⟩
      have hearly : group.leader.GoneBy ⟨PROTOCOL_CLOSE_BUDGET, some 0, none, none⟩ :=
        ⟨exit, hmem, Nat.le_trans hle (Nat.le_of_eq (Nat.zero_add _))⟩
      rw [if_pos hearly]
      simp only [termGroup_eq, hzero]
      rw [ended_iff hgone rfl]
      constructor
      · intro h other hother
        have heq : exit = other := Option.some.inj (hexit.symm.trans hother)
        exact heq ▸ h trivial
      · intro h _
        exact h exit hexit
    · rename_i hwait
      have hlate : ¬group.leader.GoneBy ⟨PROTOCOL_CLOSE_BUDGET, some 0, none, none⟩ := by
        intro hgone
        obtain ⟨exit, hexit, hle⟩ := Reaction.goneBy_iff_exitAt.mp hgone
        have hsum : exit ≤ 0 + PROTOCOL_CLOSE_BUDGET := (Nat.zero_add _).symm ▸ hle
        have hsome := (wait_eq_some (s := ⟨0, some 0, none, none⟩)).mpr ⟨exit, hexit, hsum, rfl⟩
        rw [hwait] at hsome
        cases hsome
      rw [if_neg hlate]
      apply termStage_ended_iff
      intro exit hmem
      apply Nat.le_of_lt
      apply Nat.lt_of_not_le
      intro hle
      exact hlate ⟨exit, hmem, Nat.le_trans hle (Nat.le_of_eq (Nat.zero_add _))⟩

/-- The leader exits 50 ms after SIGTERM, and a descendant ignores that signal. -/
def deafDescendant : ProcessGroup where
  pid := 4211
  pid_gt := by decide
  leader := ⟨none, none, some 50, some 0⟩
  descendants := [⟨none, none, none, some 0⟩]
  exitStatus := some "signal: 15 (SIGTERM)"

theorem teardown_leaves_descendant :
    (deafDescendant.teardown false 5000).1.reaped = true ∧
      ¬deafDescendant.Ended (deafDescendant.teardown false 5000).2 := by
  refine ⟨by decide, fun hended => ?_⟩
  have hmem : ⟨none, none, none, some 0⟩ ∈ deafDescendant.members :=
    List.mem_cons_of_mem _ (List.mem_singleton.mpr rfl)
  have hdescendant := hended _ hmem
  revert hdescendant
  decide

end ProcessGroup

end BrowserServe.Chrome
