import BrowserServe.Library.Limits
import Mathlib.Data.Option.Basic

namespace BrowserServe.HostCapacity
open Library
set_option autoImplicit true

/-- The limits of the host; one that is not there does not bind. -/
structure HostLimits where
  memCeilingBytes : Option UInt64
  pidsMax : Option UInt64
  cpus : UInt32

/-- What one session takes. -/
structure SessionFootprint where
  bytes : UInt64
  threads : UInt64

/-- What a ceiling comes from. -/
inductive Constraint
  | cpu
  | memory
  | pids
  | measured
  deriving DecidableEq

structure Capacity where
  maxSessions : UInt32
  boundBy : Constraint

def USABLE_NUM : UInt64 := 4
def USABLE_DEN : UInt64 := 5
def SESSIONS_PER_CPU : UInt32 := 2
def AUTO_CEILING : UInt32 := 256

/-- What a session is taken to need before one has been measured. -/
def SESSION_ESTIMATE : SessionFootprint := ⟨800 * 1024 * 1024, 160⟩

/-- The sessions that fit in the usable part of a limit. A figure of zero leaves it out. -/
def sessionsWithin (limit : Option UInt64) (each : UInt64) : Option (Option UInt64) :=
  (limit.filter fun _ => 0 < each).mapM fun ceiling => do
    let parts ← checkedDiv ceiling USABLE_DEN
    let usable ← checkedMul parts USABLE_NUM
    checkedDiv usable each

def clamp (value low high : UInt64) : UInt64 := max low (min value high)

def u32TryFrom (value : UInt64) : Option UInt32 :=
  if value.toNat < UInt32.size then some value.toUInt32 else none

/-- `compute`; none where a product leaves the word or a divisor is zero. -/
def compute (limits : HostLimits) (footprint : Option SessionFootprint) : Option Capacity := do
  let cpuBound ← checkedMul (max limits.cpus 1).toUInt64 SESSIONS_PER_CPU.toUInt64
  let best := (cpuBound, Constraint.cpu)
  let fp := footprint.getD SESSION_ESTIMATE
  let mem ← sessionsWithin limits.memCeilingBytes fp.bytes
  let best := consider best mem .memory
  let pids ← sessionsWithin limits.pidsMax fp.threads
  let best := consider best pids .pids
  some ⟨(u32TryFrom (clamp best.1 1 AUTO_CEILING.toUInt64)).getD 1, best.2⟩

/-- The ceiling after calibration, in which `sustained` sessions kept recording. -/
def deriveCeiling (sustained : UInt32) (cleanCap : Bool) (footprint : Option SessionFootprint)
    (limits : HostLimits) : Option Capacity :=
  if cleanCap then do
    let modeled ← compute limits footprint
    some ⟨max modeled.maxSessions (max sustained 1), modeled.boundBy⟩
  else some ⟨max sustained 1, .measured⟩

/-- The sessions that each constraint allows. -/
def HostLimits.allowed (limits : HostLimits) (fp : SessionFootprint) : Constraint → Option Nat
  | .cpu => some (2 * max limits.cpus.toNat 1)
  | .memory => (limits.memCeilingBytes.filter fun _ => 0 < fp.bytes).map fun ceiling =>
      share 4 5 fp.bytes.toNat ceiling.toNat
  | .pids => (limits.pidsMax.filter fun _ => 0 < fp.threads).map fun ceiling =>
      share 4 5 fp.threads.toNat ceiling.toNat
  | .measured => none

theorem sessionsWithin_eq (limit : Option UInt64) (each : UInt64) :
    ∃ sessions, sessionsWithin limit each = some sessions ∧
      sessions.map UInt64.toNat =
        (limit.filter fun _ => 0 < each).map fun ceiling => share 4 5 each.toNat ceiling.toNat := by
  cases hkept : limit.filter fun _ => 0 < each with
  | none =>
    refine ⟨none, ?_, rfl⟩
    rw [sessionsWithin, hkept]
    rfl
  | some ceiling =>
    have hpos : 0 < each := by simpa using (Option.filter_eq_some_iff.1 hkept).2
    have hne : each ≠ 0 := fun he => by simp [he] at hpos
    obtain ⟨parts, hparts, hpartsVal⟩ :=
      checkedDiv_eq (a := ceiling) (b := USABLE_DEN) (by decide)
    have hfits : parts.toNat * USABLE_NUM.toNat < UInt64.size := by
      have hlt := ceiling.toNat_lt_size
      rw [hpartsVal]
      simp only [USABLE_DEN, USABLE_NUM, UInt64.reduceToNat]
      omega
    obtain ⟨usable, husable, husableVal⟩ := checkedMul_eq hfits
    obtain ⟨sessions, hsessions, hval⟩ := checkedDiv_eq (a := usable) hne
    refine ⟨some sessions, ?_, ?_⟩
    · rw [sessionsWithin, hkept]
      simp [hparts, husable, hsessions]
    · rw [Option.map_some, Option.map_some, hval, husableVal, hpartsVal]
      rfl

/-- A capacity follows from the least of the constraints. -/
structure Computed (limits : HostLimits) (fp : SessionFootprint) (v : Nat) (c : Capacity) :
    Prop where
  least : Least (limits.allowed fp) [.pids, .memory, .cpu] (v, c.boundBy)
  value : c.maxSessions.toNat = max 1 (min v 256)

theorem clamp_tryFrom (v : UInt64) :
    ((u32TryFrom (clamp v 1 AUTO_CEILING.toUInt64)).getD 1).toNat = max 1 (min v.toNat 256) := by
  have hval : (clamp v 1 AUTO_CEILING.toUInt64).toNat = max 1 (min v.toNat 256) := by
    simp only [clamp, UInt64.toNat_max, UInt64.toNat_min]
    rfl
  have hlt : (clamp v 1 AUTO_CEILING.toUInt64).toNat < UInt32.size := by
    rw [hval, UInt32.size]
    omega
  rw [u32TryFrom, if_pos hlt, Option.getD_some, UInt64.toNat_toUInt32, hval]
  omega

theorem compute_spec (limits : HostLimits) (footprint : Option SessionFootprint) :
    ∃ c v, compute limits footprint = some c ∧
      Computed limits (footprint.getD SESSION_ESTIMATE) v c := by
  have hcpu : (max limits.cpus 1).toUInt64.toNat * SESSIONS_PER_CPU.toUInt64.toNat <
      UInt64.size := by
    have hlt := (max limits.cpus 1).toNat_lt_size
    simp only [UInt32.toNat_toUInt64, UInt32.size, SESSIONS_PER_CPU, UInt64.size,
      UInt32.reduceToNat] at hlt ⊢
    omega
  obtain ⟨cpuBound, hcpuBound, hcpuVal⟩ := checkedMul_eq hcpu
  obtain ⟨mem, hmem, hmemVal⟩ :=
    sessionsWithin_eq limits.memCeilingBytes (footprint.getD SESSION_ESTIMATE).bytes
  obtain ⟨pids, hpids, hpidsVal⟩ :=
    sessionsWithin_eq limits.pidsMax (footprint.getD SESSION_ESTIMATE).threads
  let value : Constraint → Option UInt64
    | .cpu => some cpuBound
    | .memory => mem
    | .pids => pids
    | .measured => none
  let best := consider (consider (cpuBound, Constraint.cpu) mem .memory) pids .pids
  have hfirst : Least value [.cpu] (cpuBound, .cpu) := .single rfl
  have hleast : Least value [.pids, .memory, .cpu] best :=
    (hfirst.consider .memory).consider .pids
  have hallowed : (fun k => (value k).map UInt64.toNat) =
      limits.allowed (footprint.getD SESSION_ESTIMATE) := by
    funext k
    cases k with
    | cpu =>
      simp only [value, Option.map_some, HostLimits.allowed, hcpuVal, UInt32.toNat_toUInt64,
        UInt32.toNat_max, Nat.mul_comm]
      rfl
    | memory => exact hmemVal
    | pids => exact hpidsVal
    | measured => rfl
  refine ⟨⟨(u32TryFrom (clamp best.1 1 AUTO_CEILING.toUInt64)).getD 1, best.2⟩,
    best.1.toNat, ?_, ?_, clamp_tryFrom best.1⟩
  · simp only [compute, hcpuBound, hmem, hpids, Option.bind_eq_bind, Option.bind_some]
    rfl
  · rw [← hallowed]
    exact hleast.map fun _ _ h => UInt64.le_iff_toNat_le.1 h

/-- A limit grows, or goes away. -/
def Limit.Grows (limit limit' : Option UInt64) : Prop :=
  ∀ v', limit' = some v' → ∃ v, limit = some v ∧ v ≤ v'

structure HostLimits.Grows (limits limits' : HostLimits) : Prop where
  mem : Limit.Grows limits.memCeilingBytes limits'.memCeilingBytes
  pids : Limit.Grows limits.pidsMax limits'.pidsMax
  cpus : limits.cpus ≤ limits'.cpus

structure SessionFootprint.Shrinks (fp fp' : SessionFootprint) : Prop where
  bytes : fp'.bytes ≤ fp.bytes
  threads : fp'.threads ≤ fp.threads

theorem Limit.Grows.allowed {limit limit' : Option UInt64} {each each' : UInt64}
    (h : Limit.Grows limit limit') (heach : each' ≤ each)
    (hv : (limit'.filter fun _ => 0 < each').map
      (fun ceiling => share 4 5 each'.toNat ceiling.toNat) = some v') :
    ∃ v, (limit.filter fun _ => 0 < each).map
      (fun ceiling => share 4 5 each.toNat ceiling.toNat) = some v ∧ v ≤ v' := by
  obtain ⟨ceiling', hkept, rfl⟩ := Option.map_eq_some_iff.1 hv
  obtain ⟨hlimit, hpos⟩ := Option.filter_eq_some_iff.1 hkept
  simp only [decide_eq_true_eq, UInt64.lt_iff_toNat_lt, UInt64.toNat_zero] at hpos
  obtain ⟨ceiling, hceiling, hle⟩ := h ceiling' hlimit
  have heach' := UInt64.le_iff_toNat_le.1 heach
  have hpos' : 0 < each := UInt64.lt_iff_toNat_lt.2 (Nat.lt_of_lt_of_le hpos heach')
  refine ⟨_, ?_, share_mono 4 5 heach' hpos (UInt64.le_iff_toNat_le.1 hle)⟩
  rw [hceiling, Option.filter_some, if_pos (by simpa using hpos'), Option.map_some]

theorem HostLimits.Grows.allowed {limits limits' : HostLimits} {fp fp' : SessionFootprint}
    (hlimits : limits.Grows limits') (hfp : fp.Shrinks fp') (k : Constraint) (v' : Nat)
    (hv : limits'.allowed fp' k = some v') :
    ∃ v, limits.allowed fp k = some v ∧ v ≤ v' := by
  cases k with
  | cpu =>
    obtain rfl := Option.some.inj hv
    have hcpus := UInt32.le_iff_toNat_le.1 hlimits.cpus
    exact ⟨_, rfl, by omega⟩
  | memory => exact hlimits.mem.allowed hfp.bytes hv
  | pids => exact hlimits.pids.allowed hfp.threads hv
  | measured => cases hv

theorem Computed.mem_seen (h : Computed limits fp v c) :
    c.boundBy ∈ [Constraint.pids, .memory, .cpu] := by
  have hattained := h.least.attained
  cases hk : c.boundBy with
  | measured =>
    simp only [hk] at hattained
    cases hattained
  | _ => simp

theorem Computed.mono (h : Computed limits fp v c) (h' : Computed limits' fp' v' c')
    (hlimits : limits.Grows limits') (hfp : fp.Shrinks fp') :
    c.maxSessions ≤ c'.maxSessions := by
  have hle : v ≤ v' := h.least.mono h'.least h'.mem_seen (hlimits.allowed hfp)
  have hval := h.value
  have hval' := h'.value
  rw [UInt32.le_iff_toNat_le]
  omega

/-- Sessions of one size that fit in four fifths of a limit. -/
def FitsIn (sessions : Nat) (each : UInt64) (limit : Option UInt64) : Prop :=
  ∀ ceiling, limit = some ceiling → each ≠ 0 →
    5 * (sessions * each.toNat) ≤ 4 * ceiling.toNat

theorem FitsIn.of_allowed {each : UInt64} {limit : Option UInt64} {sessions : Nat}
    (h : ∀ w, (limit.filter fun _ => 0 < each).map
      (fun ceiling => share 4 5 each.toNat ceiling.toNat) = some w → sessions ≤ w) :
    FitsIn sessions each limit := by
  intro ceiling hceiling hne
  have hpos : 0 < each := UInt64.pos_iff_ne_zero.2 hne
  have hle := h (share 4 5 each.toNat ceiling.toNat)
    (by rw [hceiling, Option.filter_some, if_pos (by simpa using hpos), Option.map_some])
  calc 5 * (sessions * each.toNat)
      ≤ 5 * (share 4 5 each.toNat ceiling.toNat * each.toNat) :=
        Nat.mul_le_mul_left 5 (Nat.mul_le_mul_right _ hle)
    _ ≤ 4 * ceiling.toNat := share_mul_le 4 5 _ _

/-- Sessions that the host holds. -/
structure HostLimits.Holds (limits : HostLimits) (fp : SessionFootprint) (sessions : Nat) :
    Prop where
  mem : FitsIn sessions fp.bytes limits.memCeilingBytes
  pids : FitsIn sessions fp.threads limits.pidsMax
  cpus : sessions ≤ 2 * max limits.cpus.toNat 1

theorem Computed.holds (h : Computed limits fp v c) (hmany : 1 < c.maxSessions.toNat) :
    limits.Holds fp c.maxSessions.toNat := by
  have hle : c.maxSessions.toNat ≤ v := by
    have hval := h.value
    omega
  have hleast : ∀ k ∈ [Constraint.pids, .memory, .cpu], ∀ w, limits.allowed fp k = some w →
      c.maxSessions.toNat ≤ w :=
    fun k hk w hw => Nat.le_trans hle (h.least.least k hk w hw)
  constructor
  · exact .of_allowed (hleast .memory (by simp))
  · exact .of_allowed (hleast .pids (by simp))
  · exact hleast .cpu (by simp) _ rfl

/-- The least of what the constraints allow, attained by one of them. -/
def HostLimits.BoundBy (limits : HostLimits) (fp : SessionFootprint) (k : Constraint) (v : Nat) :
    Prop :=
  limits.allowed fp k = some v ∧ ∀ other w, limits.allowed fp other = some w → v ≤ w

theorem Computed.boundBy (h : Computed limits fp v c) : limits.BoundBy fp c.boundBy v := by
  refine ⟨h.least.attained, fun other w hw => ?_⟩
  cases other with
  | measured => cases hw
  | _ => exact h.least.least _ (by simp) w hw

theorem deriveCeiling_measured (sustained : UInt32) (footprint : Option SessionFootprint)
    (limits : HostLimits) :
    ∃ d, deriveCeiling sustained false footprint limits = some d ∧
      d.maxSessions = max sustained 1 :=
  ⟨⟨max sustained 1, .measured⟩, rfl, rfl⟩

theorem deriveCeiling_modeled {footprint : Option SessionFootprint}
    (hc : compute limits footprint = some c) (sustained : UInt32) :
    ∃ d, deriveCeiling sustained true footprint limits = some d ∧
      d.maxSessions = max c.maxSessions (max sustained 1) := by
  refine ⟨⟨max c.maxSessions (max sustained 1), c.boundBy⟩, ?_, rfl⟩
  rw [deriveCeiling, if_pos rfl, hc]
  rfl

/-- For every host and every footprint the ceiling is computed with no overflow and no division
by zero, lies between 1 and 256, and is the least of the constraints brought into that range;
from 2 on the host holds that many sessions, and it never falls as the limits grow and the
footprint shrinks. After calibration it is the sustained count, or no less than both. -/
theorem compute_safe_and_monotone (limits : HostLimits) (footprint : Option SessionFootprint) :
    ∃ c, compute limits footprint = some c ∧
      1 ≤ c.maxSessions.toNat ∧ c.maxSessions.toNat ≤ 256 ∧
      (1 < c.maxSessions.toNat →
        limits.Holds (footprint.getD SESSION_ESTIMATE) c.maxSessions.toNat) ∧
      (∃ v, limits.BoundBy (footprint.getD SESSION_ESTIMATE) c.boundBy v ∧
        c.maxSessions.toNat = max 1 (min v 256)) ∧
      (∀ limits' footprint' c', limits.Grows limits' →
        (footprint.getD SESSION_ESTIMATE).Shrinks (footprint'.getD SESSION_ESTIMATE) →
        compute limits' footprint' = some c' → c.maxSessions ≤ c'.maxSessions) ∧
      ∀ sustained cleanCap, ∃ d, deriveCeiling sustained cleanCap footprint limits = some d ∧
        1 ≤ d.maxSessions ∧ sustained ≤ d.maxSessions ∧
        (cleanCap = false → d.maxSessions = max sustained 1) ∧
        (cleanCap = true → c.maxSessions ≤ d.maxSessions) := by
  obtain ⟨c, v, hc, hspec⟩ := compute_spec limits footprint
  have hval := hspec.value
  refine ⟨c, hc, by omega, by omega, hspec.holds, ⟨v, hspec.boundBy, hval⟩, ?_, ?_⟩
  · intro limits' footprint' c' hlimits hfp hc'
    obtain ⟨d, v', hd, hspec'⟩ := compute_spec limits' footprint'
    obtain rfl := Option.some.inj (hc'.symm.trans hd)
    exact hspec.mono hspec' hlimits hfp
  · intro sustained cleanCap
    cases cleanCap with
    | false =>
      obtain ⟨d, hd, hmax⟩ := deriveCeiling_measured sustained footprint limits
      refine ⟨d, hd, ?_, ?_, fun _ => hmax, fun h => absurd h (by simp)⟩ <;>
        simp only [hmax, UInt32.le_iff_toNat_le, UInt32.toNat_max]
      · exact Nat.le_max_right _ _
      · exact Nat.le_max_left _ _
    | true =>
      obtain ⟨d, hd, hmax⟩ := deriveCeiling_modeled hc sustained
      refine ⟨d, hd, ?_, ?_, fun h => absurd h (by simp), fun _ => ?_⟩ <;>
        simp only [hmax, UInt32.le_iff_toNat_le, UInt32.toNat_max]
      · exact Nat.le_trans (Nat.le_max_right _ _) (Nat.le_max_right _ _)
      · exact Nat.le_trans (Nat.le_max_left _ _) (Nat.le_max_right _ _)
      · exact Nat.le_max_left _ _

end BrowserServe.HostCapacity
