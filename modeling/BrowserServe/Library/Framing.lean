import Mathlib.Data.List.Basic

namespace BrowserServe.Library
set_option autoImplicit true

section Framing
variable {α : Type} [DecidableEq α] (z : α)

/-- The messages a stream holds, each ended by the terminator. -/
def framesOf (bytes : List α) : List (List α) := (bytes.splitOn z).dropLast

/-- What a stream holds after its last terminator. -/
def restOf (bytes : List α) : List α := (bytes.splitOn z).getLastD []

theorem splitOn_ne_nil (bytes : List α) : bytes.splitOn z ≠ [] :=
  List.splitOnP_ne_nil _ _

theorem splitOn_eq (bytes : List α) :
    bytes.splitOn z = framesOf z bytes ++ [restOf z bytes] := by
  have hlast := List.dropLast_append_getLast (splitOn_ne_nil z bytes)
  rw [framesOf, restOf, List.getLastD_eq_getLast?, List.getLast?_eq_some_getLast, Option.getD_some]
  exact hlast.symm

theorem framesOf_eq {bytes : List α} (h : bytes.splitOn z = complete ++ [rest]) :
    framesOf z bytes = complete ∧ restOf z bytes = rest := by
  simp [framesOf, restOf, h]

theorem splitOn_cons (b : α) (bytes : List α) :
    (b :: bytes).splitOn z =
      if b = z then [] :: bytes.splitOn z else (bytes.splitOn z).modifyHead (List.cons b) := by
  simp [List.splitOn, List.splitOnP_cons_eq_if_modifyHead]

theorem not_mem_of_mem_splitOn (bytes : List α) : ∀ part ∈ bytes.splitOn z, z ∉ part := by
  induction bytes with
  | nil =>
    intro part hmem
    cases List.mem_singleton.mp hmem
    exact List.not_mem_nil
  | cons b bytes ih =>
    intro part hmem
    rw [splitOn_cons] at hmem
    split at hmem
    · cases List.mem_cons.mp hmem with
      | inl h =>
        rw [h]
        exact List.not_mem_nil
      | inr h => exact ih part h
    · rename_i hb
      cases hsplit : bytes.splitOn z with
      | nil => exact absurd hsplit (splitOn_ne_nil z bytes)
      | cons first parts =>
        rw [hsplit, List.modifyHead_cons] at hmem
        rw [hsplit] at ih
        cases List.mem_cons.mp hmem with
        | inl h =>
          rw [h, List.mem_cons]
          intro hz
          rcases hz with hz | hz
          · exact hb hz.symm
          · exact ih first List.mem_cons_self hz
        | inr h => exact ih part (List.mem_cons_of_mem _ h)

/-- Bytes without a terminator go on the unfinished message. -/
theorem splitOn_append {more : List α} (h : z ∉ more) (bytes : List α) :
    (bytes ++ more).splitOn z = framesOf z bytes ++ [restOf z bytes ++ more] := by
  induction bytes with
  | nil =>
    have hone : more.splitOn z = [more] := by
      apply List.splitOnP_eq_singleton
      intro b hb
      simpa using ne_of_mem_of_not_mem hb h
    simpa [framesOf, restOf] using hone
  | cons b bytes ih =>
    have hsplit := splitOn_eq z bytes
    rw [List.cons_append, splitOn_cons, ih]
    by_cases hb : b = z
    · obtain ⟨hf, hu⟩ : framesOf z (b :: bytes) = [] :: framesOf z bytes ∧
          restOf z (b :: bytes) = restOf z bytes :=
        framesOf_eq z (by rw [splitOn_cons, if_pos hb, hsplit]; rfl)
      rw [if_pos hb, hf, hu]
      rfl
    · cases hframes : framesOf z bytes with
      | nil =>
        obtain ⟨hf, hu⟩ : framesOf z (b :: bytes) = [] ∧
            restOf z (b :: bytes) = b :: restOf z bytes :=
          framesOf_eq z (by rw [splitOn_cons, if_neg hb, hsplit, hframes]; rfl)
        rw [if_neg hb, hf, hu]
        rfl
      | cons first rest =>
        obtain ⟨hf, hu⟩ : framesOf z (b :: bytes) = (b :: first) :: rest ∧
            restOf z (b :: bytes) = restOf z bytes :=
          framesOf_eq z (by rw [splitOn_cons, if_neg hb, hsplit, hframes]; rfl)
        rw [if_neg hb, hf, hu]
        rfl

theorem framesOf_append {more : List α} (h : z ∉ more) (bytes : List α) :
    framesOf z (bytes ++ more) = framesOf z bytes :=
  (framesOf_eq z (splitOn_append z h bytes)).1

theorem restOf_append {more : List α} (h : z ∉ more) (bytes : List α) :
    restOf z (bytes ++ more) = restOf z bytes ++ more :=
  (framesOf_eq z (splitOn_append z h bytes)).2

/-- A terminator ends the unfinished message. -/
theorem splitOn_terminate (bytes : List α) :
    (bytes ++ [z]).splitOn z = framesOf z bytes ++ [restOf z bytes] ++ [[]] := by
  have hz : List.splitOnP (· == z) (bytes ++ z :: []) =
      List.splitOnP (· == z) bytes ++ List.splitOnP (· == z) [] :=
    List.splitOnP_append_cons bytes [] (beq_self_eq_true z)
  rw [← splitOn_eq]
  exact hz

theorem framesOf_terminate (bytes : List α) :
    framesOf z (bytes ++ [z]) = framesOf z bytes ++ [restOf z bytes] :=
  (framesOf_eq z (splitOn_terminate z bytes)).1

theorem restOf_terminate (bytes : List α) : restOf z (bytes ++ [z]) = [] :=
  (framesOf_eq z (splitOn_terminate z bytes)).2

/-- A whole message joins what was left unfinished before it. -/
theorem framesOf_send {message : List α} (h : z ∉ message) (bytes : List α) :
    framesOf z (bytes ++ message ++ [z]) = framesOf z bytes ++ [restOf z bytes ++ message] := by
  rw [framesOf_terminate, framesOf_append z h, restOf_append z h]

theorem splitOn_cons_message {message : List α} (h : z ∉ message) (rest : List α) :
    (message ++ z :: rest).splitOn z = message :: rest.splitOn z := by
  have hz : List.splitOnP (· == z) (message ++ z :: rest) =
      List.splitOnP (· == z) message ++ List.splitOnP (· == z) rest :=
    List.splitOnP_append_cons message rest (beq_self_eq_true z)
  have hone : List.splitOnP (· == z) message = [message] := by
    apply List.splitOnP_eq_singleton
    intro b hb
    simpa using ne_of_mem_of_not_mem hb h
  rw [hone] at hz
  exact hz

/-- A whole message at the front of a stream is its first one. -/
theorem framesOf_cons {message : List α} (h : z ∉ message) (rest : List α) :
    framesOf z (message ++ z :: rest) = message :: framesOf z rest ∧
      restOf z (message ++ z :: rest) = restOf z rest := by
  apply framesOf_eq
  rw [splitOn_cons_message z h, splitOn_eq z rest]
  rfl

theorem framesOf_of_not_mem {bytes : List α} (h : z ∉ bytes) :
    framesOf z bytes = [] ∧ restOf z bytes = bytes := by
  apply framesOf_eq
  apply List.splitOnP_eq_singleton
  intro b hb
  simpa using ne_of_mem_of_not_mem hb h

theorem framesOf_append_cons (bytes rest : List α) :
    framesOf z (bytes ++ z :: rest) = framesOf z bytes ++ restOf z bytes :: framesOf z rest := by
  have hz : List.splitOnP (· == z) (bytes ++ z :: rest) =
      List.splitOnP (· == z) bytes ++ List.splitOnP (· == z) rest :=
    List.splitOnP_append_cons bytes rest (beq_self_eq_true z)
  have hsplit : (bytes ++ z :: rest).splitOn z =
      (framesOf z bytes ++ restOf z bytes :: framesOf z rest) ++ [restOf z rest] := by
    rw [List.append_assoc, List.cons_append, ← splitOn_eq,
      List.append_cons (framesOf z bytes), ← splitOn_eq]
    exact hz
  exact (framesOf_eq z hsplit).1

/-- There are as many messages as terminators. -/
theorem framesOf_length (bytes : List α) : (framesOf z bytes).length = bytes.count z := by
  induction bytes with
  | nil => rfl
  | cons b bytes ih =>
    have hsplit := splitOn_cons z b bytes
    have hlength : (bytes.splitOn z).length = bytes.count z + 1 := by
      rw [splitOn_eq, List.length_append, ih, List.length_singleton]
    rw [framesOf, List.length_dropLast, hsplit]
    by_cases hb : b = z
    · rw [if_pos hb, List.length_cons, hlength, hb, List.count_cons_self]
      rfl
    · rw [if_neg hb, List.length_modifyHead, hlength, List.count_cons_of_ne hb]
      rfl

theorem framesOf_messages {messages : List (List α)} (h : ∀ message ∈ messages, z ∉ message)
    (htail : z ∉ tail) : framesOf z (messages.flatMap (· ++ [z]) ++ tail) = messages := by
  induction messages with
  | nil => exact (framesOf_of_not_mem z htail).1
  | cons message messages ih =>
    rw [List.flatMap_cons, List.append_assoc, List.append_assoc, List.singleton_append,
      (framesOf_cons z (h message List.mem_cons_self) _).1,
      ih fun m hm => h m (List.mem_cons_of_mem _ hm)]

theorem le_count_messages (messages : List (List α)) :
    messages.length ≤ (messages.flatMap (· ++ [z])).count z := by
  induction messages with
  | nil => exact Nat.le_refl 0
  | cons message messages ih =>
    rw [List.flatMap_cons, List.count_append, List.count_append, List.count_singleton_self,
      List.length_cons]
    omega

theorem not_mem_of_count_messages {messages : List (List α)}
    (h : (messages.flatMap (· ++ [z])).count z ≤ messages.length) :
    ∀ message ∈ messages, z ∉ message := by
  induction messages with
  | nil => exact fun message hmem => absurd hmem List.not_mem_nil
  | cons message messages ih =>
    have hle := le_count_messages z messages
    rw [List.flatMap_cons, List.count_append, List.count_append, List.count_singleton_self,
      List.length_cons] at h
    have hmessage : message.count z = 0 := by omega
    intro other hmem
    cases hmem with
    | head => exact List.count_eq_zero.mp hmessage
    | tail _ hmem => exact ih (by omega) other hmem

/-- Messages come out of a stream one by one as they went in exactly when none of them has a
terminator in it, nor what is there of the next one, and nothing was left unfinished before the
first. -/
theorem framesOf_messages_iff (start : List α) (messages : List (List α)) (tail : List α) :
    framesOf z (start ++ messages.flatMap (· ++ [z]) ++ tail) = framesOf z start ++ messages ↔
      (∀ message ∈ messages, z ∉ message) ∧ z ∉ tail ∧ (messages = [] ∨ restOf z start = []) := by
  have hframes : (∀ message ∈ messages, z ∉ message) → z ∉ tail →
      (framesOf z (start ++ messages.flatMap (· ++ [z]) ++ tail) = framesOf z start ++ messages ↔
        messages = [] ∨ restOf z start = []) := by
    intro hfree htail
    cases messages with
    | nil => simp [framesOf_append z htail]
    | cons message messages =>
      have hmessage := hfree message List.mem_cons_self
      have hrest : framesOf z (messages.flatMap (· ++ [z]) ++ tail) = messages :=
        framesOf_messages z (fun m hm => hfree m (List.mem_cons_of_mem _ hm)) htail
      have hstream : start ++ (message :: messages).flatMap (· ++ [z]) ++ tail =
          (start ++ message) ++ z :: (messages.flatMap (· ++ [z]) ++ tail) := by
        simp
      rw [hstream, framesOf_append_cons, framesOf_append z hmessage, restOf_append z hmessage,
        hrest]
      simp
  constructor
  · intro h
    have hlength := congrArg List.length h
    have hle := le_count_messages z messages
    rw [framesOf_length, List.count_append, List.count_append, List.length_append,
      framesOf_length] at hlength
    have htail : tail.count z = 0 := by omega
    have hfree : ∀ message ∈ messages, z ∉ message := not_mem_of_count_messages z (by omega)
    rw [List.count_eq_zero] at htail
    exact ⟨hfree, htail, (hframes hfree htail).mp h⟩
  · rintro ⟨hfree, htail, hstart⟩
    exact (hframes hfree htail).mpr hstart

/-- What a reader with a cap on its messages gets: a message, the refusal of one that is
too large, or the end of the stream. -/
inductive Received (α : Type) where
  | message (bytes : List α)
  | tooLarge
  | closed
  deriving DecidableEq

/-- What comes out of a stream at the `i`th time: its messages, up to the first one, ended
or not, over the cap. -/
def received (max : Nat) (bytes : List α) (i : Nat) : Received α :=
  match ((framesOf z bytes).takeWhile fun message => decide (message.length ≤ max))[i]? with
  | some message => .message message
  | none =>
    if (∀ message ∈ framesOf z bytes, message.length ≤ max) ∧ (restOf z bytes).length ≤ max then
      .closed
    else .tooLarge

variable {z}

theorem received_zero {message : List α} {max : Nat} (h : z ∉ message)
    (hle : message.length ≤ max) (rest : List α) :
    received z max (message ++ z :: rest) 0 = .message message := by
  simp [received, framesOf_cons z h, hle]

theorem received_succ {message : List α} {max : Nat} (h : z ∉ message)
    (hle : message.length ≤ max) (rest : List α) (i : Nat) :
    received z max (message ++ z :: rest) (i + 1) = received z max rest i := by
  simp [received, framesOf_cons z h, hle]

/-- A stream that begins with too many bytes of one message only gives refusals. -/
theorem received_tooLarge {start : List α} {max : Nat} (h : z ∉ start)
    (hlt : max < start.length) (rest : List α) (i : Nat) :
    received z max (start ++ rest) i = .tooLarge := by
  have hlong (more : List α) : ¬ (start ++ more).length ≤ max := by
    rw [List.length_append]
    omega
  by_cases hmem : z ∈ rest
  · obtain ⟨more, tail, rfl, hmore⟩ := List.eq_append_cons_of_mem hmem
    have hfirst : z ∉ start ++ more := by simp [h, hmore]
    obtain ⟨hframes, hrest⟩ := framesOf_cons z hfirst tail
    rw [← List.append_assoc, received, hframes, hrest,
      List.takeWhile_cons_of_neg (by simpa only [decide_eq_true_eq] using hlong more)]
    apply if_neg
    intro hall
    exact hlong more (hall.1 _ List.mem_cons_self)
  · have hnone : z ∉ start ++ rest := by simp [h, hmem]
    obtain ⟨hframes, hrest⟩ := framesOf_of_not_mem z hnone
    rw [received, hframes, hrest]
    apply if_neg
    intro hall
    exact hlong rest hall.2

theorem received_closed {bytes : List α} {max : Nat} (h : z ∉ bytes) (hle : bytes.length ≤ max)
    (i : Nat) : received z max bytes i = .closed := by
  simp [received, framesOf_of_not_mem z h, hle]

/-- Messages within the cap that were sent one after the other come out as they are. -/
theorem received_sent {messages : List (List α)} {max : Nat}
    (h : ∀ message ∈ messages, z ∉ message ∧ message.length ≤ max) (i : Nat) :
    received z max (messages.flatMap (· ++ [z])) i =
      match messages[i]? with
      | some message => .message message
      | none => .closed := by
  induction messages generalizing i with
  | nil => exact received_closed List.not_mem_nil (Nat.zero_le _) i
  | cons message messages ih =>
    obtain ⟨hz, hle⟩ := h message List.mem_cons_self
    have hrest := ih fun m hm => h m (List.mem_cons_of_mem _ hm)
    rw [List.flatMap_cons, List.append_assoc, List.singleton_append]
    cases i with
    | zero => exact received_zero hz hle _
    | succ i => exact (received_succ hz hle _ i).trans (hrest i)

end Framing

end BrowserServe.Library
