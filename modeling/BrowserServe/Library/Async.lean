import Mathlib.Data.List.Basic

namespace BrowserServe.Library
set_option autoImplicit true

/-- Why a future has given no value: it ended with an error, or what it waits for has not
come. -/
inductive Stop (ε : Type) where
  | failed (error : ε)
  | waiting
  deriving DecidableEq

theorem except_bind_ok {x : Except ε α} {f : α → Except ε β} {b : β} (h : x >>= f = .ok b) :
    ∃ a, x = .ok a ∧ f a = .ok b := by
  cases x with
  | error e => cases h
  | ok a => exact ⟨a, rfl, h⟩

/-- A future that works on a state: as far as it gets with what there is. -/
def Async (σ ε α : Type) : Type := σ → Except (Stop ε) α × σ

namespace Async

instance : Monad (Async σ ε) where
  pure a := fun s => (.ok a, s)
  bind x f := fun s =>
    match x s with
    | (.ok a, s) => f a s
    | (.error stop, s) => (.error stop, s)

def throw (e : ε) : Async σ ε α := fun s => (.error (.failed e), s)

def wait : Async σ ε α := fun s => (.error .waiting, s)

def mapErr (f : ε → ε') (x : Async σ ε α) : Async σ ε' α := fun s =>
  match x s with
  | (.ok a, s) => (.ok a, s)
  | (.error (.failed e), s) => (.error (.failed (f e)), s)
  | (.error .waiting, s) => (.error .waiting, s)

/-- The outcome of a future as a value, to be matched on. -/
def attempt (x : Async σ ε α) : Async σ ε' (Except ε α) := fun s =>
  match x s with
  | (.ok a, s) => (.ok (.ok a), s)
  | (.error (.failed e), s) => (.ok (.error e), s)
  | (.error .waiting, s) => (.error .waiting, s)

/-- A future that works on one part of the state. -/
def on (get : σ → τ) (set : τ → σ → σ) (x : Async τ ε α) : Async σ ε α := fun s =>
  ((x (get s)).1, set (x (get s)).2 s)

variable {x : Async σ ε α}

@[simp] theorem pure_run (a : α) (s : σ) : (pure a : Async σ ε α) s = (.ok a, s) := rfl

@[simp] theorem throw_run (e : ε) (s : σ) :
    (throw e : Async σ ε α) s = (.error (.failed e), s) := rfl

theorem bind_of_ok {f : α → Async σ ε β} (h : x s = (.ok a, t)) : (x >>= f) s = f a t := by
  simp only [bind, h]

theorem bind_of_error {f : α → Async σ ε β} (h : x s = (.error stop, t)) :
    (x >>= f) s = (.error stop, t) := by
  simp only [bind, h]

/-- What a sequence of two futures gives, the first one did first. -/
theorem bind_cases {f : α → Async σ ε β} (h : (x >>= f) s = (r, u)) :
    (∃ a t, x s = (.ok a, t) ∧ f a t = (r, u)) ∨
      ∃ stop, x s = (.error stop, u) ∧ r = .error stop := by
  cases hx : x s with
  | mk first t =>
    cases first with
    | ok a =>
      rw [bind_of_ok hx] at h
      exact .inl ⟨a, t, rfl, h⟩
    | error stop =>
      rw [bind_of_error hx] at h
      cases h
      exact .inr ⟨stop, rfl, rfl⟩

theorem bind_ok {f : α → Async σ ε β} (h : (x >>= f) s = (.ok b, u)) :
    ∃ a t, x s = (.ok a, t) ∧ f a t = (.ok b, u) := by
  rcases bind_cases h with hfirst | ⟨stop, _, hstop⟩
  · exact hfirst
  · cases hstop

theorem mapErr_ok {f : ε → ε'} (h : x.mapErr f s = (.ok a, t)) : x s = (.ok a, t) := by
  unfold mapErr at h
  split at h
  · next heq =>
    cases h
    exact heq
  · cases h
  · cases h

theorem mapErr_of_ok {f : ε → ε'} (h : x s = (.ok a, t)) : x.mapErr f s = (.ok a, t) := by
  simp only [mapErr, h]

theorem mapErr_cases {f : ε → ε'} (h : x.mapErr f s = (r, t)) :
    ∃ r', x s = (r', t) ∧ ∀ a, r = .ok a ↔ r' = .ok a := by
  unfold mapErr at h
  split at h
  · rename_i heq
    cases h
    exact ⟨_, heq, fun _ => ⟨fun h => by cases h; rfl, fun h => by cases h; rfl⟩⟩
  · rename_i heq
    cases h
    exact ⟨_, heq, fun _ => ⟨nofun, nofun⟩⟩
  · rename_i heq
    cases h
    exact ⟨_, heq, fun _ => ⟨nofun, nofun⟩⟩

theorem attempt_of_ok (h : x s = (.ok a, t)) :
    (attempt x : Async σ ε' _) s = (.ok (.ok a), t) := by
  simp only [attempt, h]

theorem attempt_of_failed (h : x s = (.error (.failed e), t)) :
    (attempt x : Async σ ε' _) s = (.ok (.error e), t) := by
  simp only [attempt, h]

theorem attempt_of_waiting (h : x s = (.error .waiting, t)) :
    (attempt x : Async σ ε' _) s = (.error .waiting, t) := by
  simp only [attempt, h]

theorem on_of {get : σ → τ} {set : τ → σ → σ} {x : Async τ ε α} (h : x (get s) = (r, t)) :
    on get set x s = (r, set t s) := by
  simp only [on, h]

theorem map_id_run (x : Async σ ε α) : id <$> x = x := by
  funext s
  cases hx : x s with
  | mk r t =>
    cases r with
    | ok a => exact bind_of_ok hx
    | error stop => exact bind_of_error hx

theorem bind_assoc_run (x : Async σ ε α) (f : α → Async σ ε β) (g : β → Async σ ε γ) :
    x >>= f >>= g = x >>= fun a => f a >>= g := by
  funext s
  cases hx : x s with
  | mk r t =>
    cases r with
    | ok a => simp only [bind, hx]
    | error stop => simp only [bind, hx]

instance : LawfulMonad (Async σ ε) :=
  LawfulMonad.mk' (Async σ ε) map_id_run (fun _ _ => rfl) bind_assoc_run

/-- A part of the state that a future leaves as it is. -/
def Keeps (f : σ → γ) (x : Async σ ε α) : Prop := ∀ s, f (x s).2 = f s

theorem keeps_pure (f : σ → γ) (a : α) : Keeps f (pure a : Async σ ε α) := fun _ => rfl

theorem keeps_throw (f : σ → γ) (e : ε) : Keeps f (throw e : Async σ ε α) := fun _ => rfl

theorem keeps_wait (f : σ → γ) : Keeps f (wait : Async σ ε α) := fun _ => rfl

theorem Keeps.bind {f : σ → γ} {g : α → Async σ ε β} (hx : Keeps f x) (hg : ∀ a, Keeps f (g a)) :
    Keeps f (x >>= g) := by
  intro s
  have hfirst := hx s
  cases hrun : x s with
  | mk r t =>
    rw [hrun] at hfirst
    cases r with
    | ok a =>
      rw [bind_of_ok hrun]
      exact (hg a t).trans hfirst
    | error stop =>
      rw [bind_of_error hrun]
      exact hfirst

theorem mapErr_state (f : ε → ε') (s : σ) : (x.mapErr f s).2 = (x s).2 := by
  unfold Async.mapErr
  cases x s with
  | mk r t =>
    cases r with
    | ok a => rfl
    | error stop => cases stop <;> rfl

theorem attempt_state (x : Async σ ε α) (s : σ) :
    ((attempt x : Async σ ε' (Except ε α)) s).2 = (x s).2 := by
  unfold Async.attempt
  cases x s with
  | mk r t =>
    cases r with
    | ok a => rfl
    | error stop => cases stop <;> rfl

theorem Keeps.mapErr {f : σ → γ} (hx : Keeps f x) (g : ε → ε') : Keeps f (x.mapErr g) := fun s =>
  (congrArg f (mapErr_state g s)).trans (hx s)

theorem Keeps.attempt {f : σ → γ} (hx : Keeps f x) :
    Keeps f (Async.attempt x : Async σ ε' (Except ε α)) := fun s =>
  (congrArg f (attempt_state x s)).trans (hx s)

theorem Keeps.on {get : σ → τ} {set : τ → σ → σ} {f : σ → γ} {g : τ → γ'} {x : Async τ ε α}
    (hx : Keeps g x) (hset : ∀ t s, g t = g (get s) → f (set t s) = f s) :
    Keeps f (Async.on get set x) := fun s => hset _ _ (hx (get s))

/-- Futures done one after another. -/
def all : List (Async σ ε α) → Async σ ε Unit
  | [] => return ()
  | x :: xs => do
    let _ ← x
    all xs

/-- What each of them gives, up to the first that gives no value. -/
def results : List (Async σ ε α) → σ → List (Except (Stop ε) α)
  | [], _ => []
  | x :: xs, s =>
    match x s with
    | (.ok a, s) => .ok a :: results xs s
    | (.error stop, _) => [.error stop]

theorem results_of_ok {xs : List (Async σ ε α)} (h : x s = (.ok a, t)) :
    results (x :: xs) s = .ok a :: results xs t := by
  simp only [results, h]

theorem results_of_error {xs : List (Async σ ε α)} (h : x s = (.error stop, t)) :
    results (x :: xs) s = [.error stop] := by
  simp only [results, h]

theorem all_append (xs ys : List (Async σ ε α)) :
    all (xs ++ ys) = (do all xs; all ys) := by
  induction xs with
  | nil => rfl
  | cons x xs ih =>
    rw [List.cons_append, all, all, ih]
    exact (bind_assoc_run x _ _).symm

/-- It stops with what the one that gives no value stops with. -/
theorem all_error_iff {xs : List (Async σ ε α)} :
    (all xs s).1 = .error stop ↔ .error stop ∈ results xs s := by
  induction xs generalizing s with
  | nil =>
    constructor
    · intro h
      cases h
    · intro h
      cases h
  | cons x xs ih =>
    cases hx : x s with
    | mk r t =>
      cases r with
      | ok a =>
        rw [all, bind_of_ok hx, results_of_ok hx, ih]
        simp
      | error first =>
        rw [all, bind_of_error hx, results_of_error hx]
        simp [eq_comm]

theorem all_ok_iff {xs : List (Async σ ε α)} :
    (all xs s).1 = .ok () ↔ ∃ as : List α, as.length = xs.length ∧ results xs s = as.map .ok := by
  induction xs generalizing s with
  | nil => exact ⟨fun _ => ⟨[], rfl, rfl⟩, fun _ => rfl⟩
  | cons x xs ih =>
    cases hx : x s with
    | mk r t =>
      cases r with
      | ok a =>
        rw [all, bind_of_ok hx, results_of_ok hx, ih]
        constructor
        · rintro ⟨as, hlen, has⟩
          exact ⟨a :: as, congrArg Nat.succ hlen, congrArg (List.cons _) has⟩
        · rintro ⟨as, hlen, has⟩
          cases as with
          | nil => cases hlen
          | cons b as =>
            rw [List.map_cons] at has
            exact ⟨as, Nat.succ.inj hlen, (List.cons.inj has).2⟩
      | error stop =>
        rw [all, bind_of_error hx, results_of_error hx]
        constructor
        · intro h
          cases h
        · rintro ⟨as, _, has⟩
          cases as with
          | nil => cases has
          | cons b as => cases has

end Async

/-- An error of a stream: its kind and its own text. -/
structure IoError where
  kind : String
  text : String
  deriving DecidableEq

def IoError.unexpectedEof (text : String) : IoError := ⟨"unexpected end of file", text⟩

/-- How a stream goes on after the bytes that have arrived. -/
inductive Ending where
  | eof
  | failed (error : IoError)
  | silent
  deriving DecidableEq

/-- The reading side of a stream: what arrives, cut into segments. -/
structure Incoming (α : Type) where
  segments : List (List α)
  ending : Ending
  deriving DecidableEq

namespace Incoming

def bytes (incoming : Incoming α) : List α := incoming.segments.flatten

/-- One read of at most `size` bytes: what there is of one segment, nothing at the end. -/
def read (size : Nat) : Async (Incoming α) IoError (List α) := fun incoming =>
  match incoming.segments.dropWhile List.isEmpty with
  | segment :: segments =>
    (.ok (segment.take size), { incoming with segments := segment.drop size :: segments })
  | [] =>
    match incoming.ending with
    | .eof => (.ok [], incoming)
    | .failed e => (.error (.failed e), incoming)
    | .silent => (.error .waiting, incoming)

/-- What a read can do. -/
inductive Got (incoming : Incoming α) (size : Nat) :
    Except (Stop IoError) (List α) × Incoming α → Prop
  | data {after : Incoming α} (hbytes : incoming.bytes = bs ++ after.bytes) (hne : bs ≠ [])
      (hle : bs.length ≤ size) (hending : after.ending = incoming.ending) :
      Got incoming size (.ok bs, after)
  | eof (hbytes : incoming.bytes = []) (hending : incoming.ending = .eof) :
      Got incoming size (.ok [], incoming)
  | failed (hbytes : incoming.bytes = []) (hending : incoming.ending = .failed e) :
      Got incoming size (.error (.failed e), incoming)
  | waiting (hbytes : incoming.bytes = []) (hending : incoming.ending = .silent) :
      Got incoming size (.error .waiting, incoming)

theorem flatten_dropWhile_isEmpty (segments : List (List α)) :
    (segments.dropWhile List.isEmpty).flatten = segments.flatten := by
  induction segments with
  | nil => rfl
  | cons segment segments ih =>
    cases segment with
    | nil => exact ih
    | cons b bs => rfl

theorem read_got (incoming : Incoming α) (hsize : 0 < size) :
    Got incoming size (read size incoming) := by
  have hflat := flatten_dropWhile_isEmpty incoming.segments
  unfold read
  cases hdrop : incoming.segments.dropWhile List.isEmpty with
  | cons segment segments =>
    rw [hdrop, List.flatten_cons] at hflat
    have hne : segment ≠ [] := by
      have hcons : incoming.segments.dropWhile List.isEmpty ≠ [] := by simp [hdrop]
      have hhead := List.head_dropWhile_not List.isEmpty hcons
      simpa [hdrop] using hhead
    refine .data ?_ ?_ (List.length_take_le _ _) rfl
    · change incoming.segments.flatten =
        segment.take size ++ (segment.drop size :: segments).flatten
      rw [List.flatten_cons, ← List.append_assoc, List.take_append_drop, hflat]
    · cases segment with
      | nil => exact absurd rfl hne
      | cons b bs =>
        obtain ⟨n, rfl⟩ := Nat.exists_eq_succ_of_ne_zero (Nat.ne_of_gt hsize)
        simp
  | nil =>
    rw [hdrop, List.flatten_nil] at hflat
    cases hending : incoming.ending with
    | eof => exact .eof hflat.symm hending
    | failed e => exact .failed hflat.symm hending
    | silent => exact .waiting hflat.symm hending

/-- Reads exactly `n` bytes, in as many reads as it takes. -/
def readExact : Nat → Async (Incoming α) IoError (List α)
  | 0 => pure []
  | n + 1 => fun incoming =>
    match read (n + 1) incoming with
    | (.ok [], incoming) => (.error (.failed (.unexpectedEof "early eof")), incoming)
    | (.ok (b :: bs), incoming) =>
      (do
        let more ← readExact (n - bs.length)
        return b :: bs ++ more) incoming
    | (.error stop, incoming) => (.error stop, incoming)
termination_by n => n
decreasing_by omega

theorem readExact_succ (n : Nat) (incoming : Incoming α) :
    readExact (n + 1) incoming =
      match read (n + 1) incoming with
      | (.ok [], incoming) => (.error (.failed (.unexpectedEof "early eof")), incoming)
      | (.ok (b :: bs), incoming) =>
        (readExact (n - bs.length) >>= fun more => pure (b :: bs ++ more)) incoming
      | (.error stop, incoming) => (.error stop, incoming) := by
  rw [readExact]

/-- Enough bytes, in whatever segments, are read exactly. -/
theorem readExact_of_le {n : Nat} {incoming : Incoming α} (h : n ≤ incoming.bytes.length) :
    ∃ after : Incoming α, readExact n incoming = (.ok (incoming.bytes.take n), after) ∧
      after.bytes = incoming.bytes.drop n ∧ after.ending = incoming.ending := by
  induction n using Nat.strongRecOn generalizing incoming with
  | ind n ih =>
    cases n with
    | zero => exact ⟨incoming, by rw [readExact]; rfl, rfl, rfl⟩
    | succ n =>
      have hgot := read_got incoming (Nat.succ_pos n)
      rw [readExact_succ]
      generalize read (n + 1) incoming = result at hgot
      cases hgot with
      | @data bs after hbytes hne hle hending =>
        cases bs with
        | nil => exact absurd rfl hne
        | cons b bs =>
          simp only [List.length_cons] at hle
          have hlen : n + 1 ≤ bs.length + 1 + after.bytes.length := by
            have heq := congrArg List.length hbytes
            simp only [List.length_append, List.length_cons] at heq
            omega
          have hmore : n - bs.length ≤ after.bytes.length := by omega
          obtain ⟨last, hlast, hleft, hend⟩ := ih (n - bs.length) (by omega) hmore
          refine ⟨last, ?_, ?_, hend.trans hending⟩
          · have htake : incoming.bytes.take (n + 1) =
                b :: bs ++ after.bytes.take (n - bs.length) := by
              rw [hbytes, List.take_append, List.take_of_length_le hle, List.length_cons,
                Nat.add_sub_add_right]
            rw [htake]
            exact Async.bind_of_ok hlast
          · have hall : (b :: bs).drop (n + 1) = [] := List.drop_of_length_le hle
            rw [hleft, hbytes, List.drop_append, hall, List.length_cons, Nat.add_sub_add_right,
              List.nil_append]
      | eof hbytes => simp [hbytes] at h
      | failed hbytes => simp [hbytes] at h
      | waiting hbytes => simp [hbytes] at h

/-- What `readExact` returns is what it took from the front of the stream. -/
theorem readExact_ok {n : Nat} {incoming after : Incoming α}
    (h : readExact n incoming = (.ok bs, after)) :
    incoming.bytes = bs ++ after.bytes ∧ bs.length = n ∧ after.ending = incoming.ending := by
  induction n using Nat.strongRecOn generalizing incoming bs with
  | ind n ih =>
    cases n with
    | zero =>
      rw [readExact] at h
      cases h
      exact ⟨rfl, rfl, rfl⟩
    | succ n =>
      have hgot := read_got incoming (Nat.succ_pos n)
      rw [readExact_succ] at h
      generalize read (n + 1) incoming = result at hgot h
      cases hgot with
      | @data taken next hbytes hne hle hending =>
        cases taken with
        | nil => exact absurd rfl hne
        | cons b taken =>
          obtain ⟨more, last, hmore, hlast⟩ := Async.bind_ok h
          cases hlast
          obtain ⟨hnext, hlen, hend⟩ := ih (n - taken.length) (by omega) hmore
          simp only [List.length_cons] at hle
          refine ⟨?_, ?_, hend.trans hending⟩
          · rw [hbytes, hnext, List.append_assoc]
          · simp only [List.length_append, List.length_cons]
            omega
      | eof => cases h
      | failed => cases h
      | waiting => cases h

end Incoming

/-- The writing side of a stream: what the other end was sent, and how many bytes it still
takes before a write stops, when there is such a limit. -/
structure Outgoing (α : Type) where
  written : List α
  room : Option (Nat × Stop IoError)
  shut : Bool
  deriving DecidableEq

namespace Outgoing

def writeAll (bytes : List α) : Async (Outgoing α) IoError Unit := fun out =>
  match out.room with
  | none => (.ok (), { out with written := out.written ++ bytes })
  | some (room, stop) =>
    if bytes.length ≤ room then
      (.ok (), { out with
        written := out.written ++ bytes, room := some (room - bytes.length, stop) })
    else
      (.error stop, { out with written := out.written ++ bytes.take room, room := some (0, stop) })

def shutdown : Async (Outgoing α) ε Unit := fun out => (.ok (), { out with shut := true })

theorem writeAll_ok {out after : Outgoing α} (h : writeAll bytes out = (.ok (), after)) :
    after.written = out.written ++ bytes ∧ after.shut = out.shut ∧
      (out.room = none → after.room = none) := by
  unfold writeAll at h
  split at h
  · next heq =>
    cases h
    exact ⟨rfl, rfl, id⟩
  · next heq =>
    split at h
    · cases h
      exact ⟨rfl, rfl, fun hnone => (by rw [hnone] at heq; cases heq)⟩
    · cases h

theorem writeAll_of_open {out : Outgoing α} (h : out.room = none) (bytes : List α) :
    writeAll bytes out = (.ok (), { out with written := out.written ++ bytes }) := by
  simp only [writeAll, h]

end Outgoing
end BrowserServe.Library
