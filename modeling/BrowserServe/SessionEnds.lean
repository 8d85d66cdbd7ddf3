import BrowserServe.SessionOwns

namespace BrowserServe
open Library
set_option autoImplicit true

/-- Code of a life that asks for what is its own. -/
abbrev LifeMinds (f : ChromeFactory) (p : LifeM α) (Q : α → Finset Thing → Prop)
    (r : Finset Thing) : Prop :=
  p.Owns lifeHost (fun r op => ∀ n ∈ op.names, n.Own f r) (fun _ => False) Q r

variable {f : ChromeFactory} {r : Finset Thing} {xs : List Resource}

theorem Minds.lift {p : FactoryM α} {Q : α → Finset Thing → Prop} (h : Minds f p Q r) :
    LifeMinds f (FactoryM.lift p) Q r := by
  induction p generalizing r with
  | done a => exact h
  | perform op resume ih =>
    obtain ⟨hnames, _, hdo⟩ := h
    refine ⟨hnames, fun _ hdrop => hdrop, fun answer r' heffect => ?_⟩
    cases heffect with
    | factory hfactory => exact ih answer (hdo answer r' hfactory)

theorem lifeMinds_ask {op : LifeOp} {Q : op.Answer → Finset Thing → Prop}
    (hnames : ∀ n ∈ op.names, n.Own f r)
    (hdo : ∀ answer r', LifeEffect r op answer r' → Q answer r') : LifeMinds f (askLife op) Q r :=
  Program.owns_ask hnames (fun _ hdrop => hdrop) hdo

def relayOf (relay : Option Relay) : List Resource :=
  relay.toList.map fun relay => .relay relay.port

namespace ChromeFactory

theorem minds_abortMonitor {monitor : Option AbortHandle} (h : Has f r (monitorOf monitor ++ xs))
    (hother : ∀ m, .monitor m ∉ xs) :
    LifeMinds f (abortMonitor monitor) (fun _ r' => Has f r' xs) r := by
  cases monitor with
  | none => exact h
  | some monitor =>
    apply lifeMinds_ask
    · intro n hn
      cases List.mem_singleton.1 hn
      exact h.known List.mem_cons_self fun _ hk => hk
    · intro _ r' heffect
      cases heffect with
      | aborted => exact Has.gone h fun hmem => absurd hmem (hother monitor)

theorem minds_dropRelay {relay : Option Relay} (h : Has f r (relayOf relay ++ xs))
    (hother : ∀ port, .relay port ∉ xs) :
    LifeMinds f (dropRelay relay) (fun _ r' => Has f r' xs) r := by
  cases relay with
  | none => exact h
  | some relay =>
    apply lifeMinds_ask
    · intro n hn
      cases List.mem_singleton.1 hn
      exact h.known List.mem_cons_self fun _ hk => hk
    · intro _ r' heffect
      cases heffect with
      | relayDropped => exact Has.gone h fun hmem => absurd hmem (hother relay.port)

theorem minds_teardownBrowser {pid : Int} {grace : Nat} (h : Has f r (.browser pid :: xs))
    (hother : .browser pid ∉ xs) :
    Minds f (ask (.teardownBrowser pid grace)) (fun _ r' => Has f r' xs) r := by
  apply minds_ask
  · intro n hn
    cases List.mem_singleton.1 hn
    exact h.known List.mem_cons_self fun _ hk => hk
  · intro _ r' heffect
    cases heffect with
    | reaped => exact h.gone fun hmem => absurd hmem hother
    | notReaped => exact h.leave (.inl rfl)
    | settled hop => cases hop

/-- A session that is killed leaves its directory. -/
theorem minds_killSession {session : ChromeSession}
    (h : Has f r (session.resources ++ relayOf session.relay)) :
    LifeMinds f (f.killSession session)
      (fun dirs r' => dirs = session.dirs ∧ Has f r' [.directory session.dirs.root]) r := by
  have hordered : Has f r (monitorOf session.monitor ++ (leafOf session.cgroup ++
      .browser session.browser.pid :: (relayOf session.relay ++
        [.directory session.dirs.root]))) := by
    refine h.perm fun x => ?_
    simp only [ChromeSession.resources, List.mem_append, List.mem_cons, List.not_mem_nil]
    tauto
  apply (minds_abortMonitor hordered ?_).bind
  · intro _ r₁ h₁
    apply (minds_destroyCgroup h₁).lift.bind
    intro _ r₂ h₂
    have hteardown : Minds f (ask (.teardownBrowser session.browser.pid f.killGrace))
        (fun _ t => Has f t (relayOf session.relay ++ [.directory session.dirs.root])) r₂ :=
      minds_teardownBrowser h₂ (by simp [relayOf])
    apply Program.Owns.bind hteardown.lift
    intro _ r₃ h₃
    apply (minds_dropRelay h₃ (by simp)).bind
    exact fun _ _ h₄ => ⟨rfl, h₄⟩
  · intro m hm
    simp [leafOf, relayOf] at hm

theorem minds_destroy {session : ChromeSession}
    (h : Has f r (session.resources ++ relayOf session.relay)) :
    LifeMinds f (f.destroy session) (fun _ r' => Has f r' []) r := by
  apply (minds_killSession h).bind
  rintro _ r' ⟨rfl, hr'⟩
  apply (minds_teardown hr').lift.bind
  exact fun _ _ ht => ht

theorem minds_destroyCapturingNative {session : ChromeSession} (hdirs : session.dirs.Formed)
    (h : Has f r (session.resources ++ relayOf session.relay)) :
    LifeMinds f (f.destroyCapturingNative session) (fun _ r' => Has f r' []) r := by
  apply (minds_killSession h).bind
  rintro _ r' ⟨rfl, hr'⟩
  apply Program.Owns.bind (Q := fun _ t => r' = t)
  · apply lifeMinds_ask
    · intro n hn
      cases List.mem_singleton.1 hn
      exact hr'.userDataDir_own List.mem_cons_self hdirs
    · intro answer t heffect
      cases heffect with
      | packed => rfl
  · rintro captured _ rfl
    apply (minds_teardown hr').lift.bind
    exact fun _ _ ht => ht

theorem minds_openRelay {proxied : Bool} (h : Has f r []) : LifeMinds f (openRelay proxied)
    (fun opened r' => (∃ relay, opened = .ok relay ∧ Has f r' (relayOf relay)) ∨
      ∃ e, opened = .error e ∧ Has f r' []) r := by
  unfold openRelay
  cases proxied with
  | false => exact .inl ⟨none, rfl, h⟩
  | true =>
    apply Program.Owns.bind (Q := fun (started : Except String Relay) r' =>
      (∃ relay, started = .ok relay ∧ Has f r' [.relay relay.port]) ∨
        ∃ e, started = .error e ∧ Has f r' [])
    · apply lifeMinds_ask
      · exact fun _ hn => absurd hn List.not_mem_nil
      · intro started r' heffect
        cases heffect with
        | relayStarted hfresh =>
          exact .inl ⟨_, rfl, h.insert_there ⟨_, Finset.mem_insert_self _ _, rfl⟩⟩
        | relayFailed => exact .inr ⟨_, rfl, h⟩
    · rintro started r' (⟨relay, rfl, hr'⟩ | ⟨e, rfl, hr'⟩)
      · exact .inl ⟨some relay, rfl, hr'⟩
      · exact .inr ⟨e, rfl, hr'⟩

theorem minds_serve {session : ChromeSession} (hdirs : session.dirs.Formed)
    (h : Has f r (session.resources ++ xs)) :
    LifeMinds f (askLife (.serve session)) (fun _ r' => r = r') r := by
  have hbrowser : .browser session.browser.pid ∈ session.resources ++ xs := by
    simp [ChromeSession.resources]
  have hdirectory : .directory session.dirs.root ∈ session.resources ++ xs := by
    simp [ChromeSession.resources]
  apply lifeMinds_ask
  · intro n hn
    rcases List.mem_cons.1 hn with rfl | hn
    · exact h.known hbrowser fun _ hk => hk
    · cases List.mem_singleton.1 hn
      exact h.userDataDir_own hdirectory hdirs
  · intro _ r' heffect
    cases heffect with
    | served => rfl

theorem minds_finish {life : Life} {session : ChromeSession} (hdirs : session.dirs.Formed)
    (h : Has f r (session.resources ++ relayOf session.relay)) :
    LifeMinds f (life.finish f session) (fun _ r' => Has f r' []) r := by
  have hdestroy := minds_destroy h
  cases life with
  | pooled proxied => exact hdestroy
  | template => exact hdestroy
  | profile indexeddb proxied capture =>
    cases capture with
    | false => exact hdestroy
    | true =>
      apply (minds_destroyCapturingNative hdirs h).bind
      exact fun _ _ ht => ht

theorem minds_session {life : Life} (h : Has f r []) :
    LifeMinds f (life.session f) (fun _ r' => Has f r' []) r := by
  apply (minds_openRelay h).bind
  rintro opened r₁ (⟨relay, rfl, h₁⟩ | ⟨e, rfl, h₁⟩)
  · have hcall : Minds f ((life.call relay).program f) (Launched f (relayOf relay) relay) r₁ :=
      minds_call h₁
    apply hcall.lift.bind
    rintro created r₂ (⟨session, rfl, hdirs, hrelay, h₂⟩ | ⟨e, rfl, h₂⟩)
    · rw [← hrelay] at h₂
      apply (minds_serve hdirs h₂).bind
      rintro _ _ rfl
      exact minds_finish hdirs h₂
    · exact minds_dropRelay (h₂.perm (by simp)) fun _ hmem => absurd hmem List.not_mem_nil
  · exact h₁

theorem minds_measureFootprint {pid : Int} (h : .there (.browser pid) ∈ r) :
    Minds f (measureFootprint pid) (fun _ r' => r = r') r := by
  have hnames : ∀ n ∈ [Name.process pid], n.Own f r := by
    intro n hn
    cases List.mem_singleton.1 hn
    exact h
  apply Program.Owns.bind (Q := fun _ r' => r = r')
  · apply minds_settled
    · rfl
    · exact hnames
  rintro bytes _ rfl
  apply Program.Owns.bind (Q := fun _ r' => r = r')
  · apply minds_settled
    · rfl
    · exact hnames
  rintro threads _ rfl
  dsimp only
  split
  · exact minds_cell rfl rfl
  · exact minds_pure rfl

theorem minds_moveTemplate {dirs : SessionDirs} {template : Text}
    (h : Name.Own f r (.userDataDir dirs.userDataDir)) :
    Minds f (moveTemplate dirs.userDataDir template) (fun _ r' => r = r') r := by
  have hnames : ∀ n ∈ [Name.userDataDir dirs.userDataDir], n.Own f r := by
    intro n hn
    cases List.mem_singleton.1 hn
    exact h
  apply Program.Owns.bind (Q := fun _ r' => r = r')
  · apply minds_settled
    · rfl
    · exact hnames
  rintro stripped _ rfl
  cases stripped with
  | false => exact minds_pure rfl
  | true =>
    apply minds_settled
    · rfl
    · exact hnames

theorem minds_sealTemplate {scratch : SessionDirs} {browser : Chrome.Browser}
    (hdirs : scratch.Formed)
    (h : Has f r [.browser browser.pid, .directory scratch.root]) :
    Minds f (f.sealTemplate scratch browser) (fun _ r' => Has f r' []) r := by
  apply (minds_cell rfl rfl).bind
  rintro _ _ rfl
  apply (minds_measureFootprint (h.known List.mem_cons_self fun _ hk => hk)).bind
  rintro _ _ rfl
  apply (minds_teardownBrowser h (by simp)).bind
  intro _ r₁ h₁
  apply (minds_cell rfl rfl).bind
  rintro _ _ rfl
  apply (minds_cell rfl rfl).bind
  rintro _ _ rfl
  apply (minds_moveTemplate (h₁.userDataDir_own List.mem_cons_self hdirs)).bind
  rintro moved _ rfl
  apply Program.Owns.bind (Q := fun _ r' => r₁ = r')
  · unfold keepTemplate
    split
    · exact minds_cell rfl rfl
    · exact minds_pure rfl
  · rintro _ _ rfl
    apply (minds_teardown h₁).bind
    exact fun _ _ ht => ht

theorem minds_prepareTemplate (h : Has f r []) :
    Minds f f.prepareTemplate (fun _ r' => Has f r' []) r := by
  apply minds_templateDir.bind
  rintro template _ rfl
  cases template with
  | some template => exact h
  | none =>
    apply (minds_newId h).bind
    intro id r₁ h₁
    apply (minds_provisionPlain h₁).bind
    rintro made r₂ (⟨dirs, rfl, hdirs, h₂⟩ | ⟨e, rfl, h₂⟩)
    · apply (minds_launchBrowser h₂ List.mem_cons_self hdirs ?_).bind
      · intro launched r₃ h₃
        cases launched with
        | ok browser => exact minds_sealTemplate hdirs h₃
        | error e =>
          apply (minds_teardown h₃).bind
          exact fun _ _ ht => ht
      · rintro l ⟨⟩
    · exact h₂

/-- A life gives up all that it had, or was refused. -/
theorem minds_life (life : Life) : LifeMinds f (life.program f) (fun _ r' => Has f r' []) ∅ := by
  cases life with
  | pooled proxied => exact minds_session Has.nil
  | profile indexeddb proxied capture => exact minds_session Has.nil
  | template => exact (minds_prepareTemplate Has.nil).lift

end ChromeFactory

end BrowserServe
