import Mathlib.Logic.Relation
import BrowserServe.Library.Async
import BrowserServe.Library.Transition

namespace BrowserServe.Library
set_option autoImplicit true

/-- One direction of a copy between streams: what is still to be read, what has been read and
not yet written, and where it goes. -/
structure Transfer (α : Type) where
  source : Incoming α
  held : List α
  readDone : Bool
  sink : Outgoing α

def Transfer.new (source : Incoming α) (sink : Outgoing α) : Transfer α :=
  { source, held := [], readDone := false, sink }

inductive Transfer.Step (t : Transfer α) : Transfer α → Prop
  | read {source : Incoming α} (hdone : t.readDone = false) (hsize : 0 < size)
      (hread : Incoming.read size t.source = (.ok (b :: bs), source)) :
      Step t { t with source, held := t.held ++ b :: bs }
  | readEnd {source : Incoming α} (hdone : t.readDone = false) (hsize : 0 < size)
      (hread : Incoming.read size t.source = (.ok [], source)) : Step t { t with readDone := true }
  | write {sink : Outgoing α} (hpos : 0 < n) (hle : n ≤ t.held.length)
      (hwrite : Outgoing.writeAll (t.held.take n) t.sink = (.ok (), sink)) :
      Step t { t with held := t.held.drop n, sink }

/-- A read or a write that can only fail. -/
def Transfer.Fails (t : Transfer α) : Prop :=
  (t.readDone = false ∧ t.source.bytes = [] ∧ ∃ e, t.source.ending = .failed e) ∨
    t.held ≠ [] ∧ ∃ e, t.sink.room = some (0, .failed e)

def Transfer.Finished (t : Transfer α) : Prop := t.readDone = true ∧ t.held = []

/-- All that goes to the other end: written, held or still to come. -/
def Transfer.stream (t : Transfer α) : List α := t.sink.written ++ t.held ++ t.source.bytes

/-- Nothing is to come after the end of the source. -/
def Transfer.Ended (t : Transfer α) : Prop := t.readDone = true → t.source.bytes = []

theorem Transfer.Step.stream {t u : Transfer α} (h : t.Step u) : u.stream = t.stream := by
  cases h with
  | read hdone hsize hread =>
    have hgot := Incoming.read_got t.source hsize
    rw [hread] at hgot
    cases hgot with
    | data hbytes =>
      simp only [Transfer.stream, hbytes, List.append_assoc]
  | readEnd => rfl
  | write hpos hle hwrite =>
    obtain ⟨hwritten, _, _⟩ := Outgoing.writeAll_ok hwrite
    rw [Transfer.stream, hwritten, List.append_assoc t.sink.written, List.take_append_drop]
    rfl

theorem Transfer.Step.ended {t u : Transfer α} (h : t.Step u) (ht : t.Ended) : u.Ended := by
  cases h with
  | read hdone =>
    intro htrue
    exact absurd (hdone.symm.trans htrue) (by decide)
  | readEnd hdone hsize hread =>
    intro _
    have hgot := Incoming.read_got t.source hsize
    rw [hread] at hgot
    cases hgot with
    | data _ hne => exact absurd rfl hne
    | eof hbytes => exact hbytes
  | write => exact ht

theorem Transfer.Step.ending {t u : Transfer α} (h : t.Step u) :
    u.source.ending = t.source.ending := by
  cases h with
  | read hdone hsize hread =>
    have hgot := Incoming.read_got t.source hsize
    rw [hread] at hgot
    cases hgot with
    | data _ _ _ hending => exact hending
  | readEnd => rfl
  | write => rfl

theorem Transfer.Step.room {t u : Transfer α} (h : t.Step u) (ht : t.sink.room = none) :
    u.sink.room = none := by
  cases h with
  | read => exact ht
  | readEnd => exact ht
  | write _ _ hwrite => exact (Outgoing.writeAll_ok hwrite).2.2 ht

theorem Transfer.Step.written {t u : Transfer α} (h : t.Step u) :
    t.sink.written <+: u.sink.written := by
  cases h with
  | read => exact List.prefix_rfl
  | readEnd => exact List.prefix_rfl
  | write _ _ hwrite =>
    rw [(Outgoing.writeAll_ok hwrite).1]
    exact List.prefix_append _ _

/-- What has been written is always a first part of the stream. -/
theorem Transfer.written_isPrefix (t : Transfer α) : t.sink.written <+: t.stream := by
  rw [Transfer.stream, List.append_assoc]
  exact List.prefix_append _ _

/-- A transfer with an open sink that cannot go on has written all there is. -/
theorem Transfer.written_of_stuck {t : Transfer α} (hroom : t.sink.room = none) (hended : t.Ended)
    (hstuck : ∀ u, ¬ t.Step u) : t.sink.written = t.stream := by
  have hheld : t.held = [] := by
    cases hheld : t.held with
    | nil => rfl
    | cons b bs =>
      refine absurd (Step.write Nat.one_pos ?_ (Outgoing.writeAll_of_open hroom _)) (hstuck _)
      rw [hheld]
      exact Nat.le_add_left 1 bs.length
  have hsource : t.source.bytes = [] := by
    cases hdone : t.readDone with
    | true => exact hended hdone
    | false =>
      have hgot := Incoming.read_got t.source Nat.one_pos
      generalize hresult : Incoming.read 1 t.source = result at hgot
      cases hgot with
      | @data bs after _ hne =>
        cases bs with
        | nil => exact absurd rfl hne
        | cons b bs => exact absurd (Step.read hdone Nat.one_pos hresult) (hstuck _)
      | eof hbytes => exact hbytes
      | failed hbytes => exact hbytes
      | waiting hbytes => exact hbytes
  rw [Transfer.stream, hheld, hsource, List.append_nil, List.append_nil]

theorem Transfer.written_of_finished {t : Transfer α} (hended : t.Ended) (h : t.Finished) :
    t.sink.written = t.stream := by
  rw [Transfer.stream, h.2, hended h.1, List.append_nil, List.append_nil]

/-- How much a transfer can still do. -/
def Transfer.left (t : Transfer α) : Nat :=
  2 * t.source.bytes.length + t.held.length + if t.readDone then 0 else 1

theorem Transfer.Step.left_lt {t u : Transfer α} (h : t.Step u) : u.left < t.left := by
  cases h with
  | read hdone hsize hread =>
    have hgot := Incoming.read_got t.source hsize
    rw [hread] at hgot
    cases hgot with
    | data hbytes =>
      have hlen := congrArg List.length hbytes
      simp only [List.length_append, List.length_cons] at hlen
      simp only [left, List.length_append, List.length_cons]
      omega
  | readEnd hdone => simp [left, hdone]
  | write hpos hle =>
    simp only [left, List.length_drop]
    omega

/-- A transfer with an open sink can always go on until it has written all there is. -/
theorem Transfer.exists_written {t : Transfer α} (hroom : t.sink.room = none) (hended : t.Ended) :
    ∃ u, Relation.ReflTransGen Transfer.Step t u ∧ u.sink.written = t.stream := by
  induction hleft : t.left using Nat.strongRecOn generalizing t with
  | ind n ih =>
    by_cases hstuck : ∀ u, ¬ t.Step u
    · exact ⟨t, .refl, Transfer.written_of_stuck hroom hended hstuck⟩
    · obtain ⟨next, hstep⟩ := not_forall_not.1 hstuck
      have hless : next.left < n := hleft ▸ hstep.left_lt
      obtain ⟨u, hrun, hwritten⟩ := ih _ hless (hstep.room hroom) (hstep.ended hended) rfl
      exact ⟨u, .head hstep hrun, hwritten.trans hstep.stream⟩

/-- What is written, with what is left to write, is a first part of some bytes, or what is written
is one and no more can be. -/
def Outgoing.Within (out : Outgoing α) (left bytes : List α) : Prop :=
  out.written ++ left <+: bytes ∨ (out.written <+: bytes ∧ ∃ stop, out.room = some (0, stop))

theorem Outgoing.Within.written {out : Outgoing α} (h : out.Within left bytes) :
    out.written <+: bytes := by
  rcases h with h | ⟨h, _⟩
  · exact (List.prefix_append _ _).trans h
  · exact h

/-- A write takes from what is left, or nothing can be written after it. -/
theorem Outgoing.Within.writeAll {out : Outgoing α} (h : out.Within (bs ++ left) bytes) :
    (Outgoing.writeAll bs out).2.Within left bytes := by
  unfold Outgoing.writeAll
  rcases h with h | ⟨h, stop, hroom⟩
  · rw [← List.append_assoc] at h
    cases out.room with
    | none => exact .inl h
    | some limit =>
      dsimp only
      split
      · exact .inl h
      · refine .inr ⟨?_, limit.2, rfl⟩
        rw [← List.take_append_drop limit.1 bs, ← List.append_assoc, List.append_assoc] at h
        exact (List.prefix_append _ _).trans h
  · rw [hroom]
    dsimp only
    split
    · rename_i hle
      rw [List.length_eq_zero_iff.1 (Nat.le_zero.1 hle), List.append_nil]
      exact .inr ⟨h, stop, rfl⟩
    · rw [List.take_zero, List.append_nil]
      exact .inr ⟨h, stop, rfl⟩

theorem Transfer.Step.within {t u : Transfer α} (h : t.Step u)
    (ht : t.sink.Within (t.held ++ t.source.bytes) bytes) :
    u.sink.Within (u.held ++ u.source.bytes) bytes := by
  cases h with
  | read hdone hsize hread =>
    have hgot := Incoming.read_got t.source hsize
    rw [hread] at hgot
    cases hgot with
    | data hbytes =>
      rw [hbytes, ← List.append_assoc] at ht
      exact ht
  | readEnd => exact ht
  | @write n sink hpos hle hwrite =>
    have hsink : (Outgoing.writeAll (t.held.take n) t.sink).2 = sink := congrArg Prod.snd hwrite
    rw [← List.take_append_drop n t.held, List.append_assoc] at ht
    exact hsink ▸ ht.writeAll

/-- The two directions of a copy between two streams, which ends when both have, or as soon
as one fails. -/
structure Duplex (α : Type) where
  up : Transfer α
  down : Transfer α
  ended : Bool

inductive Duplex.Step (d : Duplex α) : Unit → Duplex α → Prop
  | up (hended : d.ended = false) (hstep : d.up.Step next) :
      Step d () { d with up := next }
  | down (hended : d.ended = false) (hstep : d.down.Step next) :
      Step d () { d with down := next }
  | shutUp (hended : d.ended = false) (hdone : d.up.Finished) (hshut : d.up.sink.shut = false) :
      Step d () { d with up := { d.up with sink := { d.up.sink with shut := true } } }
  | shutDown (hended : d.ended = false) (hdone : d.down.Finished)
      (hshut : d.down.sink.shut = false) :
      Step d () { d with down := { d.down with sink := { d.down.sink with shut := true } } }
  | failed (hended : d.ended = false) (hfails : d.up.Fails ∨ d.down.Fails) :
      Step d () { d with ended := true }
  | finished (hended : d.ended = false) (hup : d.up.Finished ∧ d.up.sink.shut = true)
      (hdown : d.down.Finished ∧ d.down.sink.shut = true) : Step d () { d with ended := true }

/-- A copy in both directions between two streams, from its start. -/
def Duplex.system (up down : Transfer α) : System (Duplex α) Unit where
  init d := d = ⟨up, down, false⟩
  step := Duplex.Step

/-- What a transfer keeps of the one it began as. -/
structure Transfer.From (t start : Transfer α) : Prop where
  stream : t.stream = start.stream
  ended : t.Ended
  ending : t.source.ending = start.source.ending
  room : start.sink.room = none → t.sink.room = none
  written : start.sink.written <+: t.sink.written

theorem Transfer.From.refl (h : t.Ended) : Transfer.From t t :=
  ⟨rfl, h, rfl, id, List.prefix_rfl⟩

theorem Transfer.new_ended (source : Incoming α) (sink : Outgoing α) :
    (Transfer.new source sink).Ended :=
  fun h => (by cases h)

theorem Transfer.From.step {t u start : Transfer α} (h : t.From start) (hs : t.Step u) :
    u.From start :=
  ⟨hs.stream.trans h.stream, hs.ended h.ended, hs.ending.trans h.ending,
    fun hroom => hs.room (h.room hroom), h.written.trans hs.written⟩

theorem Transfer.From.shut {t start : Transfer α} (h : t.From start) :
    Transfer.From { t with sink := { t.sink with shut := true } } start :=
  ⟨h.stream, h.ended, h.ending, h.room, h.written⟩

/-- Both directions of a copy keep to the streams they began with. -/
theorem Duplex.reachable_from {up down : Transfer α} (hup : up.Ended) (hdown : down.Ended)
    (h : (Duplex.system up down).Reachable d) : d.up.From up ∧ d.down.From down := by
  apply h.invariant
  · intro s hs
    rw [show s = ⟨up, down, false⟩ from hs]
    exact ⟨.refl hup, .refl hdown⟩
  · intro s a t _ hs hstep
    cases hstep with
    | up _ hstep => exact ⟨hs.1.step hstep, hs.2⟩
    | down _ hstep => exact ⟨hs.1, hs.2.step hstep⟩
    | shutUp => exact ⟨hs.1.shut, hs.2⟩
    | shutDown => exact ⟨hs.1, hs.2.shut⟩
    | failed => exact hs
    | finished => exact hs

/-- A copy between two open streams that cannot go on has passed everything on, both ways. -/
theorem Duplex.written_of_stuck (hended : d.ended = false) (hup : d.up.Ended)
    (hdown : d.down.Ended) (hroom : d.up.sink.room = none ∧ d.down.sink.room = none)
    (hstuck : ∀ e, ¬ Duplex.Step d () e) :
    d.up.sink.written = d.up.stream ∧ d.down.sink.written = d.down.stream := by
  constructor
  · exact Transfer.written_of_stuck hroom.1 hup fun next hstep => hstuck _ (.up hended hstep)
  · exact Transfer.written_of_stuck hroom.2 hdown fun next hstep => hstuck _ (.down hended hstep)

theorem Duplex.run_up {t u other : Transfer α} (h : Relation.ReflTransGen Transfer.Step t u) :
    ∃ as, (Duplex.system x y).Run ⟨t, other, false⟩ as ⟨u, other, false⟩ := by
  induction h with
  | refl => exact ⟨[], .nil⟩
  | tail _ hstep ih =>
    obtain ⟨as, hrun⟩ := ih
    exact ⟨_, hrun.snoc (.up rfl hstep)⟩

theorem Duplex.run_down {t u other : Transfer α} (h : Relation.ReflTransGen Transfer.Step t u) :
    ∃ as, (Duplex.system x y).Run ⟨other, t, false⟩ as ⟨other, u, false⟩ := by
  induction h with
  | refl => exact ⟨[], .nil⟩
  | tail _ hstep ih =>
    obtain ⟨as, hrun⟩ := ih
    exact ⟨_, hrun.snoc (.down rfl hstep)⟩

/-- As long as it lasts, a copy between two open streams can go on until everything is passed
on, both ways. -/
theorem Duplex.exists_written {d : Duplex α} (hended : d.ended = false) (hup : d.up.Ended)
    (hdown : d.down.Ended) (hroom : d.up.sink.room = none ∧ d.down.sink.room = none) :
    ∃ as e, (Duplex.system x y).Run d as e ∧ e.up.sink.written = d.up.stream ∧
      e.down.sink.written = d.down.stream := by
  obtain ⟨dup, ddown, dended⟩ := d
  obtain rfl : dended = false := hended
  obtain ⟨u, hfirst, hu⟩ := Transfer.exists_written hroom.1 hup
  obtain ⟨v, hsecond, hv⟩ := Transfer.exists_written hroom.2 hdown
  obtain ⟨as, hrun⟩ := Duplex.run_up hfirst
  obtain ⟨bs, hrun'⟩ := Duplex.run_down hsecond
  exact ⟨as ++ bs, ⟨u, v, false⟩, hrun.trans hrun', hu, hv⟩

end BrowserServe.Library
