import BrowserServe.Library.IpRange
import Mathlib

namespace BrowserServe.Library
set_option autoImplicit true

theorem ofNat_halves (s : UInt16) :
    UInt16.ofNat (256 * (s >>> 8).toUInt8.toNat + s.toUInt8.toNat) = s := by
  have hhigh : (s >>> 8).toUInt8.toNat = s.toNat / 256 := by
    have hlt := s.toNat_lt
    rw [UInt16.toNat_toUInt8, UInt16.toNat_shiftRight]
    rw [Nat.shiftRight_eq_div_pow, show 2 ^ ((8 : UInt16).toNat % 16) = 256 from rfl]
    omega
  have hlow : s.toUInt8.toNat = s.toNat % 256 := UInt16.toNat_toUInt8 s
  rw [hhigh, hlow, Nat.div_add_mod]
  exact UInt16.ofNat_toNat

/-- Two octets at a time, in network order. -/
def IpAddr.segments : List UInt8 → List UInt16
  | high :: low :: octets => UInt16.ofNat (256 * high.toNat + low.toNat) :: segments octets
  | _ => []

theorem IpAddr.segments_octets (segments : List UInt16) :
    IpAddr.segments (segments.flatMap fun s : UInt16 => [(s >>> 8).toUInt8, s.toUInt8]) =
      segments := by
  induction segments with
  | nil => rfl
  | cons s segments ih =>
    rw [List.flatMap_cons, List.cons_append, List.cons_append, List.nil_append, IpAddr.segments, ih,
      ofNat_halves]

/-- An address by its octets. -/
def IpAddr.ofOctets (octets : List UInt8) : Option IpAddr :=
  match octets with
  | [a, b, c, d] => some (.v4 a b c d)
  | _ =>
    if h : (IpAddr.segments octets).length = 8 then
      some (.v6 ⟨(IpAddr.segments octets).toArray, h⟩)
    else none

theorem IpAddr.octets_length (ip : Vector UInt16 8) : (IpAddr.v6 ip).octets.length = 16 := by
  rw [IpAddr.octets, toList_eight]
  rfl

theorem IpAddr.ofOctets_octets (ip : IpAddr) : IpAddr.ofOctets ip.octets = some ip := by
  cases ip with
  | v4 a b c d => rfl
  | v6 ip =>
    have hsegments : IpAddr.segments (IpAddr.v6 ip).octets = ip.toList :=
      IpAddr.segments_octets ip.toList
    have hlength := IpAddr.octets_length ip
    unfold IpAddr.ofOctets
    split
    · rename_i heq
      rw [heq] at hlength
      cases hlength
    · rw [dif_pos (by rw [hsegments]; exact ip.length_toList)]
      congr 2
      exact Vector.toList_inj.mp hsegments

namespace SocksServer

def takeBytes (n : Nat) (bytes : List UInt8) : Option (List UInt8 × List UInt8) :=
  if n ≤ bytes.length then some (bytes.take n, bytes.drop n) else none

theorem takeBytes_append (bytes rest : List UInt8) :
    takeBytes bytes.length (bytes ++ rest) = some (bytes, rest) := by
  rw [takeBytes, if_pos (by simp), List.take_left, List.drop_left]

/-- Bytes after a byte that says how many they are. -/
def takeCounted : List UInt8 → Option (List UInt8 × List UInt8)
  | n :: bytes => takeBytes n.toNat bytes
  | [] => none

theorem takeCounted_append {bytes : List UInt8} (h : bytes.length < 256) (rest : List UInt8) :
    takeCounted (UInt8.ofNat bytes.length :: (bytes ++ rest)) = some (bytes, rest) := by
  have hn : (UInt8.ofNat bytes.length).toNat = bytes.length := by
    rw [UInt8.toNat_ofNat']
    omega
  rw [takeCounted, hn, takeBytes_append]

/-- A field of the methods or of a login, which has at least one byte. -/
def takeField (bytes : List UInt8) : Option (List UInt8 × List UInt8) :=
  (takeCounted bytes).filter fun taken => !taken.1.isEmpty

theorem takeField_append {bytes : List UInt8} (h : bytes.length < 256) (hne : bytes ≠ [])
    (rest : List UInt8) :
    takeField (UInt8.ofNat bytes.length :: (bytes ++ rest)) = some (bytes, rest) := by
  have hfield : (!bytes.isEmpty) = true := by simpa using hne
  rw [takeField, takeCounted_append h, Option.filter_some, if_pos hfield]

theorem takeField_ne {bytes : List UInt8} (h : takeField bytes = some (field, rest)) :
    field ≠ [] := by
  obtain ⟨_, hfield⟩ := Option.filter_eq_some_iff.1 h
  simpa using hfield

inductive Target where
  | address (ip : IpAddr)
  | name (bytes : List UInt8)
  deriving DecidableEq

inductive ClientMessage where
  | methods (offered : List UInt8)
  | login (username password : List UInt8)
  | connect (target : Target) (port : Nat)
  deriving DecidableEq

/-- The version, and the methods that are offered. -/
def readMethods : List UInt8 → Option (ClientMessage × List UInt8)
  | 5 :: bytes => (takeField bytes).map fun (offered, bytes) => (.methods offered, bytes)
  | _ => none

/-- The version of the login, the username and the password. -/
def readLogin : List UInt8 → Option (ClientMessage × List UInt8)
  | 1 :: bytes =>
    (takeField bytes).bind fun (username, bytes) =>
      (takeField bytes).map fun (password, bytes) => (.login username password, bytes)
  | _ => none

def readAddress (n : Nat) (bytes : List UInt8) : Option (Target × List UInt8) :=
  (takeBytes n bytes).bind fun (octets, bytes) =>
    (IpAddr.ofOctets octets).map fun ip => (.address ip, bytes)

def readTarget : List UInt8 → Option (Target × List UInt8)
  | 1 :: bytes => readAddress 4 bytes
  | 4 :: bytes => readAddress 16 bytes
  | 3 :: bytes => (takeCounted bytes).map fun (name, bytes) => (.name name, bytes)
  | _ => none

/-- The version, the command to connect, a reserved byte, the target and the port. -/
def readConnect : List UInt8 → Option (ClientMessage × List UInt8)
  | 5 :: 1 :: 0 :: bytes =>
    (readTarget bytes).bind fun (target, bytes) =>
      match bytes with
      | high :: low :: bytes => some (.connect target (256 * high.toNat + low.toNat), bytes)
      | _ => none
  | _ => none

/-- What comes of a reader, and what the next one makes of the rest. -/
def andThen (read : Option (ClientMessage × List UInt8)) (sent : List UInt8)
    (next : List UInt8 → List ClientMessage × List UInt8) : List ClientMessage × List UInt8 :=
  match read with
  | some (message, rest) => (message :: (next rest).1, (next rest).2)
  | none => ([], sent)

@[simp] theorem andThen_some (message : ClientMessage) (rest sent : List UInt8)
    (next : List UInt8 → List ClientMessage × List UInt8) :
    andThen (some (message, rest)) sent next = (message :: (next rest).1, (next rest).2) := rfl

@[simp] theorem andThen_none (sent : List UInt8)
    (next : List UInt8 → List ClientMessage × List UInt8) : andThen none sent next = ([], sent) :=
  rfl

def leave (sent : List UInt8) : List ClientMessage × List UInt8 := ([], sent)

/-- The method that a server chose, and its answers after that. -/
def chosenMethod : List UInt8 → Option (UInt8 × List UInt8)
  | 5 :: method :: answers => some (method, answers)
  | _ => none

def loginAccepted : List UInt8 → Bool
  | _ :: 0 :: _ => true
  | _ => false

/-- What a server that gives these answers reads of what it is sent, and what it leaves: the
methods, a login if it chose that, and the request once there is nothing to log in for. -/
def serverReads (answers sent : List UInt8) : List ClientMessage × List UInt8 :=
  andThen (readMethods sent) sent fun sent =>
    match chosenMethod answers with
    | some (method, answers) =>
      if method = 0 then andThen (readConnect sent) sent leave
      else if method = 2 then
        andThen (readLogin sent) sent fun sent =>
          if loginAccepted answers then andThen (readConnect sent) sent leave else leave sent
      else leave sent
    | none => leave sent

theorem chosenMethod_eq_some_iff {answers : List UInt8} :
    chosenMethod answers = some (method, rest) ↔ answers = 5 :: method :: rest := by
  constructor
  · intro h
    unfold chosenMethod at h
    split at h
    · cases h
      rfl
    · cases h
  · rintro rfl
    rfl

theorem chosenMethod_eq_none {answers : List UInt8}
    (h : ∀ method rest, answers ≠ 5 :: method :: rest) :
    chosenMethod answers = none := by
  cases hchosen : chosenMethod answers with
  | none => rfl
  | some parts => exact absurd (chosenMethod_eq_some_iff.mp hchosen) (h parts.1 parts.2)

theorem loginAccepted_iff {answers : List UInt8} :
    loginAccepted answers = true ↔ ∃ version rest, answers = version :: 0 :: rest := by
  constructor
  · intro h
    unfold loginAccepted at h
    split at h
    · exact ⟨_, _, rfl⟩
    · cases h
  · rintro ⟨version, rest, rfl⟩
    rfl

theorem mem_andThen {read : Option (ClientMessage × List UInt8)}
    {next : List UInt8 → List ClientMessage × List UInt8}
    (h : message ∈ (andThen read sent next).1) :
    ∃ first rest, read = some (first, rest) ∧ (message = first ∨ message ∈ (next rest).1) := by
  cases read with
  | none => cases h
  | some parts => exact ⟨parts.1, parts.2, rfl, List.mem_cons.1 h⟩

theorem readMethods_some (h : readMethods bytes = some (message, rest)) :
    ∃ offered, message = .methods offered := by
  unfold readMethods at h
  split at h
  · obtain ⟨⟨offered, _⟩, _, heq⟩ := Option.map_eq_some_iff.1 h
    cases heq
    exact ⟨offered, rfl⟩
  · cases h

theorem readLogin_some (h : readLogin bytes = some (message, rest)) :
    ∃ username password, message = .login username password ∧ username ≠ [] ∧ password ≠ [] := by
  unfold readLogin at h
  split at h
  · obtain ⟨⟨username, _⟩, huser, h⟩ := Option.bind_eq_some_iff.1 h
    obtain ⟨⟨password, _⟩, hpass, heq⟩ := Option.map_eq_some_iff.1 h
    cases heq
    exact ⟨username, password, rfl, takeField_ne huser, takeField_ne hpass⟩
  · cases h

theorem readConnect_some (h : readConnect bytes = some (message, rest)) :
    ∃ target port, message = .connect target port := by
  unfold readConnect at h
  split at h
  · obtain ⟨⟨target, _⟩, _, h⟩ := Option.bind_eq_some_iff.1 h
    dsimp only at h
    split at h
    · cases h
      exact ⟨target, _, rfl⟩
    · cases h
  · cases h

/-- A login that a server reads has a username and a password. -/
theorem login_of_serverReads
    (h : .login username password ∈ (serverReads answers sent).1) :
    username ≠ [] ∧ password ≠ [] := by
  have hconnect : ∀ bytes,
      .login username password ∉ (andThen (readConnect bytes) bytes leave).1 := by
    intro bytes hmem
    obtain ⟨first, rest, hread, hfirst | hrest⟩ := mem_andThen hmem
    · obtain ⟨target, port, rfl⟩ := readConnect_some hread
      cases hfirst
    · cases hrest
  obtain ⟨first, rest, hread, hfirst | hrest⟩ := mem_andThen h
  · obtain ⟨offered, rfl⟩ := readMethods_some hread
    cases hfirst
  split at hrest
  · next method after _ =>
    split at hrest
    · exact absurd hrest (hconnect _)
    split at hrest
    · obtain ⟨second, bytes, hlogin, hsecond | hlast⟩ := mem_andThen hrest
      · obtain ⟨user, word, rfl, hfields⟩ := readLogin_some hlogin
        cases hsecond
        exact hfields
      · split at hlast
        · exact absurd hlast (hconnect _)
        · cases hlast
    · cases hrest
  · cases hrest

theorem readTarget_address (ip : IpAddr) (rest : List UInt8) :
    readTarget ((match ip with
      | .v4 .. => 1
      | .v6 _ => 4) :: (ip.octets ++ rest)) = some (.address ip, rest) := by
  cases ip with
  | v4 a b c d =>
    have htake : takeBytes 4 ((IpAddr.v4 a b c d).octets ++ rest) =
        some ((IpAddr.v4 a b c d).octets, rest) := takeBytes_append [a, b, c, d] rest
    rw [readTarget, readAddress, htake, Option.bind_some]
    rfl
  | v6 ip =>
    have htake := takeBytes_append (IpAddr.v6 ip).octets rest
    rw [IpAddr.octets_length] at htake
    rw [readTarget, readAddress, htake, Option.bind_some]
    dsimp only
    rw [IpAddr.ofOctets_octets, Option.map_some]

theorem readTarget_name {name : List UInt8} (h : name.length < 256) (rest : List UInt8) :
    readTarget (3 :: UInt8.ofNat name.length :: (name ++ rest)) = some (.name name, rest) := by
  rw [readTarget, takeCounted_append h]
  rfl

theorem readConnect_target {bytes : List UInt8} {port : Nat}
    (h : ∀ rest, readTarget (bytes ++ rest) = some (target, rest)) (hport : port < 2 ^ 16)
    (rest : List UInt8) :
    readConnect (5 :: 1 :: 0 :: (bytes ++ UInt8.ofNat (port / 256) :: UInt8.ofNat port :: rest)) =
      some (.connect target port, rest) := by
  have hvalue : 256 * (UInt8.ofNat (port / 256)).toNat + (UInt8.ofNat port).toNat = port := by
    rw [UInt8.toNat_ofNat', UInt8.toNat_ofNat']
    omega
  rw [readConnect, h, Option.bind_some]
  dsimp only
  rw [hvalue]

end SocksServer
end BrowserServe.Library
