import BrowserServe.Library.Worklist
import Mathlib.Algebra.BigOperators.Group.Finset.Basic
import Mathlib.Algebra.GroupWithZero.Nat
import Mathlib.Data.Int.Basic

namespace BrowserServe
open Library
set_option autoImplicit true

/-- What `/proc` says of a process, of what is read. -/
structure Stat where
  pid : Int32
  ppid : Int32
  numThreads : Int64
  rss : UInt64
  deriving DecidableEq

def U64_MAX : Nat := 2 ^ 64 - 1

def saturatingAdd (a b : UInt64) : UInt64 := .ofNat (min (a.toNat + b.toNat) U64_MAX)

def saturatingMul (a b : UInt64) : UInt64 := .ofNat (min (a.toNat * b.toNat) U64_MAX)

/-- The two maps that `tree_sum` fills. -/
structure ProcessMaps where
  valueByPid : Int32 → Option UInt64
  children : Links Int32

def ProcessMaps.insert (value : Stat → UInt64) (maps : ProcessMaps) (stat : Stat) :
    ProcessMaps where
  valueByPid pid := if pid = stat.pid then some (value stat) else maps.valueByPid pid
  children := maps.children.add stat.ppid stat.pid

def processMaps (value : Stat → UInt64) (stats : List Stat) : ProcessMaps :=
  stats.foldl (.insert value) ⟨fun _ => none, .empty⟩

/-- `tree_sum` of a snapshot: its processes, of which some cannot be opened or read. -/
def treeSum (rootPid : Int32) (value : Stat → UInt64) (all : Option (List (Option Stat))) :
    Option UInt64 :=
  match all with
  | none => none
  | some all =>
    let maps := processMaps value all.reduceOption
    if (maps.valueByPid rootPid).isNone then none
    else
      some (maps.children.traverse
        (fun total pid => saturatingAdd total ((maps.valueByPid pid).getD 0)) 0 [] [rootPid])

def treeRssBytes (pageSize : UInt64) (rootPid : Int32) (all : Option (List (Option Stat))) :
    Option UInt64 :=
  treeSum rootPid (fun stat => saturatingMul stat.rss pageSize) all

/-- A negative number of threads counts as none. -/
def treeThreadCount (rootPid : Int32) (all : Option (List (Option Stat))) : Option UInt64 :=
  treeSum rootPid (fun stat => .ofNat stat.numThreads.toInt.toNat) all

/-- The value of the last process that was read with a pid. -/
def recorded (value : Stat → UInt64) (stats : List Stat) (pid : Int32) : Option UInt64 :=
  (stats.reverse.find? (·.pid = pid)).map value

/-- A process is a child of the pid it names as its parent. -/
def IsChild (stats : List Stat) (p child : Int32) : Prop :=
  ∃ stat ∈ stats, stat.ppid = p ∧ stat.pid = child

open Classical in
/-- The pids that a root leads to along child links. -/
noncomputable def treePids (stats : List Stat) (root : Int32) : Finset Int32 :=
  (root :: stats.map Stat.pid).toFinset.filter (Relation.ReflTransGen (IsChild stats) root)

section
variable {stats : List Stat}

theorem mem_treePids (root pid : Int32) :
    pid ∈ treePids stats root ↔ Relation.ReflTransGen (IsChild stats) root pid := by
  classical
  rw [treePids, Finset.mem_filter, List.mem_toFinset]
  apply and_iff_right_of_imp
  intro hreach
  cases hreach with
  | refl => exact List.mem_cons_self
  | tail _ hchild =>
    obtain ⟨stat, hstat, _, rfl⟩ := hchild
    exact List.mem_cons_of_mem _ (List.mem_map_of_mem hstat)

theorem processMaps_concat (value : Stat → UInt64) (stats : List Stat) (stat : Stat) :
    processMaps value (stats ++ [stat]) = (processMaps value stats).insert value stat := by
  rw [processMaps, List.foldl_concat]
  rfl

theorem processMaps_valueByPid (value : Stat → UInt64) (stats : List Stat) (pid : Int32) :
    (processMaps value stats).valueByPid pid = recorded value stats pid := by
  induction stats using List.reverseRecOn with
  | nil => rfl
  | append_singleton stats stat ih =>
    rw [processMaps_concat, recorded, List.reverse_append, List.reverse_singleton,
      List.singleton_append]
    simp only [ProcessMaps.insert]
    by_cases hpid : pid = stat.pid
    · rw [if_pos hpid, List.find?_cons_of_pos (by simp [hpid])]
      rfl
    · rw [if_neg hpid, List.find?_cons_of_neg (by simpa using Ne.symm hpid)]
      exact ih

theorem processMaps_children (value : Stat → UInt64) (stats : List Stat) (p child : Int32) :
    child ∈ (processMaps value stats).children.out p ↔ IsChild stats p child := by
  induction stats using List.reverseRecOn with
  | nil =>
    refine iff_of_false List.not_mem_nil ?_
    rintro ⟨stat, hstat, _⟩
    cases hstat
  | append_singleton stats stat ih =>
    have hchild : IsChild (stats ++ [stat]) p child ↔
        IsChild stats p child ∨ stat.ppid = p ∧ stat.pid = child := by
      simp only [IsChild, List.mem_append, List.mem_singleton, or_and_right, exists_or,
        exists_eq_left]
    rw [processMaps_concat, hchild, ← ih]
    simp only [ProcessMaps.insert, Links.add]
    by_cases hp : p = stat.ppid
    · rw [if_pos hp, List.mem_append, List.mem_singleton]
      exact or_congr_right ⟨fun h => ⟨hp.symm, h.symm⟩, fun h => h.2.symm⟩
    · rw [if_neg hp]
      exact (or_iff_left fun h => hp h.1.symm).symm

theorem saturated_toNat (n : Nat) : (UInt64.ofNat (min n U64_MAX)).toNat = min n U64_MAX := by
  rw [UInt64.toNat_ofNat']
  apply Nat.mod_eq_of_lt
  exact Nat.lt_of_le_of_lt (Nat.min_le_right _ _) (by decide)

theorem saturatingAdd_toNat (a b : UInt64) :
    (saturatingAdd a b).toNat = min (a.toNat + b.toNat) U64_MAX :=
  saturated_toNat _

theorem foldl_saturatingAdd (value : Int32 → UInt64) (pids : List Int32) (total : UInt64) :
    (pids.foldl (fun total pid => saturatingAdd total (value pid)) total).toNat =
      min (total.toNat + (pids.map fun pid => (value pid).toNat).sum) U64_MAX := by
  induction pids generalizing total with
  | nil =>
    have hle : total.toNat ≤ U64_MAX := Nat.le_pred_of_lt total.toNat_lt
    simpa using hle
  | cons pid pids ih =>
    rw [List.foldl_cons, ih, saturatingAdd_toNat, List.map_cons, List.sum_cons]
    omega

end

/-- A present root is summed over all pids it leads to, each once, up to the largest number. -/
theorem tree_sum_eq (rootPid : Int32) (value : Stat → UInt64) (all : List (Option Stat)) :
    treeSum rootPid value (some all) =
      if ∃ stat ∈ all.reduceOption, stat.pid = rootPid then
        some (.ofNat (min (∑ pid ∈ treePids all.reduceOption rootPid,
          ((recorded value all.reduceOption pid).getD 0).toNat) U64_MAX))
      else none := by
  generalize hstats : all.reduceOption = stats
  have hpresent : (recorded value stats rootPid).isNone = true ↔
      ¬∃ stat ∈ stats, stat.pid = rootPid := by
    simp [recorded]
  simp only [treeSum, hstats, processMaps_valueByPid, hpresent]
  by_cases hroot : ∃ stat ∈ stats, stat.pid = rootPid
  · rw [if_neg (not_not_intro hroot), if_pos hroot, Option.some.injEq]
    obtain ⟨visited, hfold, hvisits⟩ := Links.traverse_visits (processMaps value stats).children
      (fun total pid => saturatingAdd total ((recorded value stats pid).getD 0)) 0 [] [rootPid]
    have hmem : visited.toFinset = treePids stats rootPid := by
      ext pid
      have hlinks : (fun p q => q ∈ (processMaps value stats).children.out p) = IsChild stats := by
        funext p child
        exact propext (processMaps_children value stats p child)
      rw [List.mem_toFinset, hvisits.mem_iff, mem_treePids, Links.Reaches, hlinks]
    rw [hfold, ← hmem, List.sum_toFinset _ hvisits.nodup, ← UInt64.toNat_inj,
      foldl_saturatingAdd, saturated_toNat, UInt64.toNat_zero, Nat.zero_add]
  · rw [if_pos hroot, if_neg hroot]

end BrowserServe
