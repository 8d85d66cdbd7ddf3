import BrowserServe.SessionEnds
import Mathlib.Data.Finset.Lattice.Lemmas

namespace BrowserServe
open Library
set_option autoImplicit true

variable {f : ChromeFactory} {r rest held t : Finset Thing}

theorem joinDir_injective {base a b : Text} (h : joinDir base a = joinDir base b) : a = b := by
  unfold joinDir at h
  split at h
  · exact List.append_cancel_left h
  · exact (List.cons.inj (List.append_cancel_left h)).2

theorem root_injective {dataDir a b : Text}
    (h : (SessionDirs.new dataDir a).root = (SessionDirs.new dataDir b).root) : a = b :=
  joinDir_injective h

theorem repr_injective {m n : Nat} (h : text (toString m) = text (toString n)) : m = n := by
  have hdigits : Nat.toDigits 10 m = Nat.toDigits 10 n := by
    simpa [text, toString, Nat.repr] using h
  have hvalue := congrArg (fun digits => Nat.ofDigitChars 10 digits 0) hdigits
  simpa only [Nat.ofDigitChars_ten_toDigits] using hvalue

theorem newLeaf_injective {base : Text} {m n : Nat} (h : f.newLeaf base m = f.newLeaf base n) :
    m = n := by
  have hname : ∀ k : Nat, text s!"session-{f.processId}-{k}" =
      text ("session-" ++ toString f.processId ++ "-") ++ text (toString k) :=
    fun _ => String.toList_append
  have heq := joinDir_injective h
  rw [hname, hname] at heq
  exact repr_injective (List.append_cancel_left heq)

theorem Thing.anchor_unique : ∀ x k k' : Thing, x.anchor f k → x.anchor f k' → k = k' := by
  have hresource : ∀ (x : Resource) (k k' : Thing), x.anchor f k → x.anchor f k' → k = k' := by
    intro x k k' h h'
    cases x with
    | directory root =>
      obtain ⟨id, rfl, hroot⟩ := h
      obtain ⟨id', rfl, hroot'⟩ := h'
      rw [root_injective (hroot.symm.trans hroot')]
    | leaf l =>
      obtain ⟨base, n, hbase, rfl, hl⟩ := h
      obtain ⟨base', n', hbase', rfl, hl'⟩ := h'
      cases hbase.symm.trans hbase'
      rw [newLeaf_injective (hl.symm.trans hl')]
    | browser pid => exact h.trans h'.symm
    | monitor handle => exact h.trans h'.symm
    | relay port => exact h.trans h'.symm
  intro x k k' h h'
  cases x with
  | there x => exact hresource x k k' h h'
  | refused x => exact hresource x k k' h h'
  | begun x => exact hresource x k k' h h'
  | name id => exact h.trans h'.symm
  | seq n => exact h.trans h'.symm

theorem Thing.anchor_there {x : Thing} {y : Resource} (h : x.anchor f (.there y)) :
    x = .there y ∨ x = .refused y ∨ x = .begun y := by
  cases x with
  | there x => exact .inl (congrArg Thing.there (Resource.anchor_there h))
  | refused x => exact .inr (.inl (congrArg Thing.refused (Resource.anchor_there h)))
  | begun x => exact .inr (.inr (congrArg Thing.begun (Resource.anchor_there h)))
  | name id => cases h
  | seq n => cases h

theorem Thing.anchor_mark {x k : Thing} {y : Resource} (hk : k = .refused y ∨ k = .begun y) :
    ¬x.anchor f k := by
  cases x with
  | there x => exact Resource.anchor_mark hk
  | refused x => exact Resource.anchor_mark hk
  | begun x => exact Resource.anchor_mark hk
  | name id => exact (Thing.mark_ne hk).1 id
  | seq n => exact (Thing.mark_ne hk).2.1 n

/-- Things as they are after an operation of one life, and the rest as they were. -/
structure Splits (f : ChromeFactory) (rest r' t : Finset Thing) : Prop where
  union : t = r' ∪ rest
  apart : Disjoint r' rest
  anchored : Anchored (Thing.anchor f) r'

namespace Splits

theorem insert {x : Thing} (h : Splits f rest r t) (hx : x ∉ rest)
    (hk : ∃ k ∈ insert x r, x.anchor f k) : Splits f rest (insert x r) (insert x t) := by
  constructor
  · rw [h.union, Finset.insert_union]
  · exact Finset.disjoint_insert_left.2 ⟨hx, h.apart⟩
  · intro y hy
    rcases Finset.mem_insert.1 hy with rfl | hin
    · exact hk
    · obtain ⟨k, hin', hanchor⟩ := h.anchored y hin
      exact ⟨k, Finset.mem_insert_of_mem hin', hanchor⟩

/-- A thing that hangs on one that the life has. -/
theorem insert_known {x : Thing} (h : Splits f rest r t) (hrest : Anchored (Thing.anchor f) rest)
    (hk : ∃ k ∈ r, x.anchor f k) : Splits f rest (Insert.insert x r) (Insert.insert x t) := by
  apply h.insert (hrest.notMem Thing.anchor_unique h.apart hk)
  obtain ⟨k, hin, hanchor⟩ := hk
  exact ⟨k, Finset.mem_insert_of_mem hin, hanchor⟩

theorem gone {x : Resource} (h : Splits f rest r t) (hrest : Anchored (Thing.anchor f) rest)
    (hk : ∃ k ∈ r, x.anchor f k) : Splits f rest (gone x r) (gone x t) := by
  have hthere : Thing.there x ∉ rest := hrest.notMem Thing.anchor_unique h.apart hk
  have hrefused : Thing.refused x ∉ rest := hrest.notMem Thing.anchor_unique h.apart hk
  have hbegun : Thing.begun x ∉ rest := hrest.notMem Thing.anchor_unique h.apart hk
  constructor
  · ext y
    rw [h.union, Finset.mem_union, mem_gone, mem_gone, Finset.mem_union]
    constructor
    · rintro ⟨hne, hne', hne'', hin | hin⟩
      · exact .inl ⟨hne, hne', hne'', hin⟩
      · exact .inr hin
    · rintro (⟨hne, hne', hne'', hin⟩ | hin)
      · exact ⟨hne, hne', hne'', .inl hin⟩
      · exact ⟨fun heq => hrefused (heq ▸ hin), fun heq => hbegun (heq ▸ hin),
          fun heq => hthere (heq ▸ hin), .inr hin⟩
  · rw [Finset.disjoint_left]
    exact fun y hy => Finset.disjoint_left.1 h.apart (mem_gone.1 hy).2.2.2
  · intro y hy
    obtain ⟨hne, hne', hne'', hin⟩ := mem_gone.1 hy
    obtain ⟨k, hin', hanchor⟩ := h.anchored y hin
    refine ⟨k, mem_gone.2 ⟨?_, ?_, ?_, hin'⟩, hanchor⟩
    · exact fun heq => Thing.anchor_mark (.inl heq) hanchor
    · exact fun heq => Thing.anchor_mark (.inr heq) hanchor
    · intro heq
      rcases Thing.anchor_there (heq ▸ hanchor) with heq' | heq' | heq'
      · exact hne'' heq'
      · exact hne heq'
      · exact hne' heq'

end Splits

/-- The number that an operation gives out. -/
def FactoryOp.counted : (op : FactoryOp) → op.Answer → List Nat
  | nextLeafSeq, n => [n]
  | _, _ => []

theorem Name.Own.directory {root : Text} (h : Name.Own f r (.root root)) :
    ∃ k ∈ r, (Resource.directory root).anchor f k := by
  obtain ⟨id, hid, hroot⟩ := h
  exact ⟨.name id, hid, id, rfl, hroot⟩

theorem Name.Own.known_leaf {leaf : Text} (h : Name.Own f r (.leaf leaf)) :
    ∃ k ∈ r, (Resource.leaf leaf).anchor f k := by
  obtain ⟨base, n, hbase, hn, hleaf⟩ := h
  exact ⟨.seq n, hn, base, n, hbase, rfl, hleaf⟩

/-- What an operation of a life does to all things, it does to those of that life. -/
theorem FactoryEffect.splits {op : FactoryOp} {answer : op.Answer}
    (h : FactoryEffect held op answer t) (hsplit : Splits f rest r held)
    (hrest : Anchored (Thing.anchor f) rest) (hnames : ∀ n ∈ op.names, n.Own f r)
    (hseq : ∀ n ∈ op.counted answer, .seq n ∉ rest) :
    ∃ r', FactoryEffect r op answer r' ∧ Splits f rest r' t := by
  have hsub : ∀ {x : Thing}, x ∉ held → x ∉ r ∧ x ∉ rest := by
    intro x hx
    rw [hsplit.union, Finset.mem_union] at hx
    exact not_or.1 hx
  cases h with
  | newId huuid hfresh =>
    obtain ⟨hr, hnot⟩ := hsub hfresh
    exact ⟨_, .newId huuid hr, hsplit.insert hnot ⟨_, Finset.mem_insert_self _ _, rfl⟩⟩
  | nextSeq =>
    have hnot := hseq _ (List.mem_singleton_self _)
    exact ⟨_, .nextSeq, hsplit.insert hnot ⟨_, Finset.mem_insert_self _ _, rfl⟩⟩
  | dirMade =>
    have hk := Name.Own.directory (hnames _ List.mem_cons_self)
    exact ⟨_, .dirMade, hsplit.insert_known hrest hk⟩
  | dirFailed habsent => exact ⟨_, .dirFailed (hsub habsent).1, hsplit⟩
  | dirBegun =>
    have hk := Name.Own.directory (hnames _ List.mem_cons_self)
    have hthere := hsplit.insert_known (x := .there (.directory _)) hrest hk
    obtain ⟨k, hin, hanchor⟩ := hk
    exact ⟨_, .dirBegun, hthere.insert_known (x := .begun (.directory _)) hrest
      ⟨k, Finset.mem_insert_of_mem hin, hanchor⟩⟩
  | cloned =>
    have hk := Name.Own.directory (hnames _ List.mem_cons_self)
    exact ⟨_, .cloned, hsplit.insert_known hrest hk⟩
  | cloneFailed hfailed => exact ⟨_, .cloneFailed hfailed, hsplit⟩
  | cloneBegun hfailed =>
    have hk := Name.Own.directory (hnames _ List.mem_cons_self)
    exact ⟨_, .cloneBegun hfailed, hsplit.insert_known hrest hk⟩
  | removed =>
    have hk := Name.Own.directory (hnames _ List.mem_cons_self)
    exact ⟨_, .removed, hsplit.gone hrest hk⟩
  | notFound habsent => exact ⟨_, .notFound (hsub habsent).1, hsplit⟩
  | notRemoved hless => exact ⟨_, .notRemoved hless, hsplit⟩
  | neverRemoved =>
    have hk := Name.Own.directory (hnames _ List.mem_cons_self)
    exact ⟨_, .neverRemoved, hsplit.insert_known hrest hk⟩
  | leafMade =>
    have hk := Name.Own.known_leaf (hnames _ List.mem_cons_self)
    exact ⟨_, .leafMade, hsplit.insert_known hrest hk⟩
  | leafFailed => exact ⟨_, .leafFailed, hsplit⟩
  | leafRemoved =>
    have hk := Name.Own.known_leaf (hnames _ List.mem_cons_self)
    exact ⟨_, .leafRemoved, hsplit.gone hrest hk⟩
  | leafNotRemoved hless => exact ⟨_, .leafNotRemoved hless, hsplit⟩
  | leafNeverRemoved =>
    have hk := Name.Own.known_leaf (hnames _ List.mem_cons_self)
    exact ⟨_, .leafNeverRemoved, hsplit.insert_known hrest hk⟩
  | launched hfresh =>
    obtain ⟨hr, hnot⟩ := hsub hfresh
    exact ⟨_, .launched hr, hsplit.insert hnot ⟨_, Finset.mem_insert_self _ _, rfl⟩⟩
  | launchFailed => exact ⟨_, .launchFailed, hsplit⟩
  | reaped =>
    have hpid : Thing.there (.browser _) ∈ r := hnames _ List.mem_cons_self
    exact ⟨_, .reaped, hsplit.gone hrest ⟨_, hpid, rfl⟩⟩
  | notReaped =>
    have hpid : Thing.there (.browser _) ∈ r := hnames _ List.mem_cons_self
    exact ⟨_, .notReaped, hsplit.insert_known hrest ⟨_, hpid, rfl⟩⟩
  | monitored hfresh =>
    obtain ⟨hr, hnot⟩ := hsub hfresh
    exact ⟨_, .monitored hr, hsplit.insert hnot ⟨_, Finset.mem_insert_self _ _, rfl⟩⟩
  | settled hop => exact ⟨_, .settled hop, hsplit⟩

def LifeOp.counted : (op : LifeOp) → op.Answer → List Nat
  | factory op, answer => op.counted answer
  | _, _ => []

theorem LifeEffect.splits {op : LifeOp} {answer : op.Answer} (h : LifeEffect held op answer t)
    (hsplit : Splits f rest r held) (hrest : Anchored (Thing.anchor f) rest)
    (hnames : ∀ n ∈ op.names, n.Own f r) (hseq : ∀ n ∈ op.counted answer, .seq n ∉ rest) :
    ∃ r', LifeEffect r op answer r' ∧ Splits f rest r' t := by
  cases h with
  | factory hfactory =>
    obtain ⟨r', heffect, hsplit'⟩ := hfactory.splits hsplit hrest hnames hseq
    exact ⟨r', .factory heffect, hsplit'⟩
  | relayStarted hfresh =>
    rw [hsplit.union, Finset.mem_union] at hfresh
    obtain ⟨hr, hnot⟩ := not_or.1 hfresh
    exact ⟨_, .relayStarted hr, hsplit.insert hnot ⟨_, Finset.mem_insert_self _ _, rfl⟩⟩
  | relayFailed => exact ⟨_, .relayFailed, hsplit⟩
  | relayDropped =>
    have hport : Thing.there (.relay _) ∈ r := hnames _ List.mem_cons_self
    exact ⟨_, .relayDropped, hsplit.gone hrest ⟨_, hport, rfl⟩⟩
  | aborted =>
    have hmonitor : Thing.there (.monitor _) ∈ r := hnames _ List.mem_cons_self
    exact ⟨_, .aborted, hsplit.gone hrest ⟨_, hmonitor, rfl⟩⟩
  | served => exact ⟨_, .served, hsplit⟩
  | packed => exact ⟨_, .packed, hsplit⟩

/-- The names that have been given out: ids as they are written, numbers below the counter. -/
structure InstanceHost.Named (s : InstanceHost) : Prop where
  uuid : ∀ id, .name id ∈ s.held → IsUuid id
  seq : ∀ n, .seq n ∈ s.held → n < s.leafSeq

/-- The things that are names: they are never given up. -/
def Thing.given : Thing → Bool
  | name _ | seq _ => true
  | there _ | refused _ | begun _ => false

theorem mem_of_insert_given {x y : Thing} (hx : x.given = true) (hy : y.given = false)
    (h : x ∈ insert y held) : x ∈ held := by
  refine Finset.mem_of_mem_insert_of_ne h fun heq => ?_
  rw [heq, hy] at hx
  cases hx

theorem mem_gone_given {x : Thing} {y : Resource} (hx : x.given = true) :
    x ∈ gone y held ↔ x ∈ held := by
  rw [mem_gone]
  constructor
  · exact fun h => h.2.2.2
  · intro h
    refine ⟨?_, ?_, ?_, h⟩
    · rintro rfl
      cases hx
    · rintro rfl
      cases hx
    · rintro rfl
      cases hx

/-- A name that is there was there, or it is new. -/
theorem FactoryEffect.given {op : FactoryOp} {answer : op.Answer} {x : Thing}
    (h : FactoryEffect held op answer t) (hx : x.given = true) (hmem : x ∈ t) :
    x ∈ held ∨ (∃ id, x = .name id ∧ IsUuid id) ∨ ∃ n ∈ op.counted answer, x = .seq n := by
  cases h with
  | newId huuid hfresh =>
    rcases Finset.mem_insert.1 hmem with rfl | hin
    · exact .inr (.inl ⟨_, rfl, huuid⟩)
    · exact .inl hin
  | nextSeq =>
    rcases Finset.mem_insert.1 hmem with rfl | hin
    · exact .inr (.inr ⟨_, List.mem_singleton_self _, rfl⟩)
    · exact .inl hin
  | dirBegun =>
    exact .inl (mem_of_insert_given hx rfl (mem_of_insert_given hx rfl hmem))
  | dirMade | cloned | cloneBegun | neverRemoved | leafMade | leafNeverRemoved | launched
  | notReaped | monitored => exact .inl (mem_of_insert_given hx rfl hmem)
  | removed | leafRemoved | reaped => exact .inl ((mem_gone_given hx).1 hmem)
  | dirFailed | cloneFailed | notFound | notRemoved | leafFailed | leafNotRemoved | launchFailed
  | settled => exact .inl hmem

theorem FactoryEffect.keeps_given {op : FactoryOp} {answer : op.Answer} {x : Thing}
    (h : FactoryEffect held op answer t) (hx : x.given = true) (hmem : x ∈ held) : x ∈ t := by
  cases h with
  | dirBegun => exact Finset.mem_insert_of_mem (Finset.mem_insert_of_mem hmem)
  | newId | nextSeq | dirMade | cloned | cloneBegun | neverRemoved | leafMade | leafNeverRemoved
  | launched | notReaped | monitored => exact Finset.mem_insert_of_mem hmem
  | removed | leafRemoved | reaped => exact (mem_gone_given hx).2 hmem
  | dirFailed | cloneFailed | notFound | notRemoved | leafFailed | leafNotRemoved | launchFailed
  | settled => exact hmem

theorem LifeEffect.given {op : LifeOp} {answer : op.Answer} {x : Thing}
    (h : LifeEffect held op answer t) (hx : x.given = true) (hmem : x ∈ t) :
    x ∈ held ∨ (∃ id, x = .name id ∧ IsUuid id) ∨ ∃ n ∈ op.counted answer, x = .seq n := by
  cases h with
  | factory hfactory => exact hfactory.given hx hmem
  | relayStarted => exact .inl (mem_of_insert_given hx rfl hmem)
  | relayDropped | aborted => exact .inl ((mem_gone_given hx).1 hmem)
  | relayFailed | served | packed => exact .inl hmem

theorem LifeEffect.keeps_given {op : LifeOp} {answer : op.Answer} {x : Thing}
    (h : LifeEffect held op answer t) (hx : x.given = true) (hmem : x ∈ held) : x ∈ t := by
  cases h with
  | factory hfactory => exact hfactory.keeps_given hx hmem
  | relayStarted => exact Finset.mem_insert_of_mem hmem
  | relayDropped | aborted => exact (mem_gone_given hx).2 hmem
  | relayFailed | served | packed => exact hmem

namespace InstanceHost

theorem Counts.seq {s u : InstanceHost} {op : LifeOp} {answer : op.Answer}
    (h : s.Counts u op answer) :
    s.leafSeq ≤ u.leafSeq ∧ ∀ n ∈ op.counted answer, n = s.leafSeq ∧ n < u.leafSeq := by
  cases op with
  | factory op =>
    cases op with
    | nextLeafSeq =>
      obtain ⟨hanswer, hcount⟩ := h
      refine ⟨by omega, fun n hn => ?_⟩
      cases List.mem_singleton.1 hn
      refine ⟨hanswer, ?_⟩
      rw [hanswer]
      omega
    | _ => exact ⟨Nat.le_of_eq (Eq.symm h), fun n hn => absurd hn List.not_mem_nil⟩
  | _ => exact ⟨Nat.le_of_eq (Eq.symm h), fun n hn => absurd hn List.not_mem_nil⟩

theorem Named.step {s u : InstanceHost} {op : LifeOp} {answer : op.Answer} (h : s.Named)
    (heffect : LifeEffect s.held op answer u.held) (hcounts : s.Counts u op answer) : u.Named := by
  obtain ⟨hle, hnew⟩ := hcounts.seq
  constructor
  · intro id hid
    rcases heffect.given rfl hid with hin | ⟨id', heq, huuid⟩ | ⟨n, _, heq⟩
    · exact h.uuid id hin
    · cases heq
      exact huuid
    · cases heq
  · intro n hn
    rcases heffect.given rfl hn with hin | ⟨id, heq, _⟩ | ⟨n', hn', heq⟩
    · exact Nat.lt_of_lt_of_le (h.seq n hin) hle
    · cases heq
    · cases heq
      exact (hnew n hn').2

end InstanceHost

/-- The host of an instance is divided between its lives. -/
theorem instanceHost_divides : instanceHost.Divides InstanceHost.held InstanceHost.Named
    (Thing.anchor f) lifeHost fun r op => ∀ n ∈ op.names, n.Own f r where
  does := by
    rintro s op answer u r rest hnamed hheld hapart hr hrest hnames ⟨heffect, hcounts⟩
    refine ⟨hnamed.step heffect hcounts, ?_⟩
    obtain ⟨r', hlocal, hsplit⟩ :=
      heffect.splits ⟨hheld, hapart, hr⟩ hrest hnames fun n hn hmem => by
      have hold : .seq n ∈ s.held := by
        rw [hheld]
        exact Finset.mem_union_right r hmem
      have hlt := hnamed.seq n hold
      have heq := (hcounts.seq.2 n hn).1
      omega
    exact ⟨r', hlocal, hsplit.union, hsplit.apart, hsplit.anchored⟩
  drops := by
    rintro s op u r rest _ _ _ _ _ _ hdrop
    cases hdrop

theorem living_made {p : LifeM Unit} (h : ∃ life : Life, p = life.program f) :
    LifeMinds f p (fun _ r' => Has f r' []) ∅ := by
  obtain ⟨life, rfl⟩ := h
  exact ChromeFactory.minds_life life

/-- The things of an instance, divided between its lives. -/
abbrev Divided (f : ChromeFactory) (s : Calls LifeOp LifeOp.Answer Unit InstanceHost)
    (owned : Nat → Finset Thing) : Prop :=
  Calls.Shared InstanceHost.held (Thing.anchor f) lifeHost
    (fun r op => ∀ n ∈ op.names, n.Own f r) (fun _ => False) (fun _ r => Has f r []) s owned

variable {s u : Calls LifeOp LifeOp.Answer Unit InstanceHost}

theorem living_divided (h : f.living.Reachable s) :
    s.host.Named ∧ ∃ owned, Divided f s owned := by
  refine Calls.shared_of_reachable h ?_ instanceHost_divides fun p => living_made
  rintro _ rfl
  refine ⟨rfl, ?_, ?_⟩
  · exact fun id hid => absurd hid (Finset.notMem_empty _)
  · exact fun n hn => absurd hn (Finset.notMem_empty _)

theorem Divided.names_own {owned : Nat → Finset Thing} {op : LifeOp} (h : Divided f s owned)
    (hop : s.next i = some op) : ∀ n ∈ op.names, n.Own f (owned i) := by
  obtain ⟨resume, htask⟩ := Calls.next_eq_some.1 hop
  exact (h.running i _ htask).1

def firstId : Text := text "00000000-0000-4000-8000-000000000001"
def secondId : Text := text "00000000-0000-4000-8000-000000000002"

theorem isUuid_firstId : IsUuid firstId := ⟨by simp [firstId, text], by simp [firstId, text]⟩
theorem isUuid_secondId : IsUuid secondId := ⟨by simp [secondId, text], by simp [secondId, text]⟩

theorem instanceHost_does {op : LifeOp} {answer : op.Answer} {n : Nat}
    (h : LifeEffect held op answer t) (hcounts : InstanceHost.Counts ⟨held, n⟩ ⟨t, n⟩ op answer) :
    instanceHost.does ⟨held, n⟩ op answer ⟨t, n⟩ :=
  ⟨h, hcounts⟩

def firstDirs : SessionDirs := .new plainFactory.dataDir firstId
def secondDirs : SessionDirs := .new plainFactory.dataDir secondId
/-- The names that are made of those a life was given, and so are its own for good. -/
def Name.durable : Name → Bool
  | root _ | userDataDir _ | leaf _ => true
  | process _ | monitor _ | relay _ => false

def Name.dir : Name → Option Text
  | root dir | userDataDir dir => some dir
  | _ => none

/-- Neither of two directories is, or is in, the other; other names differ. -/
def Name.Apart (n n' : Name) : Prop :=
  match n.dir, n'.dir with
  | some dir, some dir' => ¬dir <+: dir' ∧ ¬dir' <+: dir
  | _, _ => n ≠ n'

theorem joinDir_append (base name : Text) : ∃ sep, joinDir base name = base ++ (sep ++ name) := by
  unfold joinDir
  split
  · exact ⟨[], rfl⟩
  · exact ⟨['/'], rfl⟩

theorem joinDir_prefix (base : Text) : ∃ front, ∀ name, joinDir base name = front ++ name := by
  unfold joinDir
  split
  · exact ⟨base, fun _ => rfl⟩
  · exact ⟨base ++ ['/'], fun _ => by rw [List.append_assoc]; rfl⟩

/-- A directory of a session is its id behind what all sessions have in common. -/
theorem Name.Own.dir {n : Name} {dir : Text} (h : n.Own f r) (hdir : n.dir = some dir) :
    ∃ id rest, .name id ∈ r ∧ dir = (SessionDirs.new f.dataDir id).root ++ rest := by
  cases n with
  | root d =>
    cases hdir
    obtain ⟨id, hid, rfl⟩ := h
    exact ⟨id, [], hid, (List.append_nil _).symm⟩
  | userDataDir d =>
    cases hdir
    obtain ⟨id, hid, rfl⟩ := h
    obtain ⟨sep, hjoin⟩ := joinDir_append (SessionDirs.new f.dataDir id).root (text "user-data-dir")
    exact ⟨id, _, hid, hjoin⟩
  | _ => cases hdir

/-- Ids of one length are not the beginning of each other, whatever comes after them. -/
theorem paths_outside {dataDir id id' rest rest' : Text} (hne : id ≠ id')
    (hlength : id.length = id'.length) :
    ¬(SessionDirs.new dataDir id).root ++ rest <+: (SessionDirs.new dataDir id').root ++ rest' := by
  rintro ⟨more, heq⟩
  obtain ⟨front, hfront⟩ := joinDir_prefix (joinDir dataDir (text "sessions"))
  have hroot : ∀ id, (SessionDirs.new dataDir id).root = front ++ id := hfront
  rw [hroot, hroot] at heq
  simp only [List.append_assoc] at heq
  exact hne (List.append_inj_left (List.append_cancel_left heq) hlength)

theorem Name.Own.durable {n : Name} (h : n.Own f r) (hn : n.durable = true)
    (hsub : ∀ x ∈ r, x.given = true → x ∈ t) : n.Own f t := by
  cases n with
  | root d =>
    obtain ⟨id, hid, hd⟩ := h
    exact ⟨id, hsub _ hid rfl, hd⟩
  | userDataDir d =>
    obtain ⟨id, hid, hd⟩ := h
    exact ⟨id, hsub _ hid rfl, hd⟩
  | leaf l =>
    obtain ⟨base, k, hbase, hk, hl⟩ := h
    exact ⟨base, k, hbase, hsub _ hk rfl, hl⟩
  | process pid => cases hn
  | monitor handle => cases hn
  | relay port => cases hn

theorem Name.Own.ne {n n' : Name} (h : n.Own f r) (h' : n'.Own f t) (hapart : Disjoint r t)
    (hdir : n.dir = none) : n ≠ n' := by
  rintro rfl
  have hboth : ∀ x, x ∈ r → x ∉ t := fun x hx hx' => Finset.disjoint_left.1 hapart hx hx'
  cases n with
  | leaf l =>
    obtain ⟨base, k, hbase, hk, hl⟩ := h
    obtain ⟨base', k', hbase', hk', hl'⟩ := h'
    cases hbase.symm.trans hbase'
    cases newLeaf_injective (hl.symm.trans hl')
    exact hboth _ hk hk'
  | process pid => exact hboth _ h h'
  | monitor handle => exact hboth _ h h'
  | relay port => exact hboth _ h h'
  | root d => cases hdir
  | userDataDir d => cases hdir

theorem Name.Own.apart {n n' : Name} (h : n.Own f r) (h' : n'.Own f t) (hapart : Disjoint r t)
    (hlength : ∀ id id', .name id ∈ r → .name id' ∈ t → id.length = id'.length) : n.Apart n' := by
  unfold Name.Apart
  cases hdir : n.dir with
  | none => exact h.ne h' hapart hdir
  | some dir =>
    cases hdir' : n'.dir with
    | none => exact fun heq => (h'.ne h hapart.symm hdir') heq.symm
    | some dir' =>
      obtain ⟨id, rest, hid, rfl⟩ := h.dir hdir
      obtain ⟨id', rest', hid', rfl⟩ := h'.dir hdir'
      have hne : id ≠ id' := by
        rintro rfl
        exact Finset.disjoint_left.1 hapart hid hid'
      have hsame := hlength id id' hid hid'
      exact ⟨paths_outside hne hsame, paths_outside hne.symm hsame.symm⟩

/-- No two lives ever name the same session directory or leaf, nor a directory inside one of the
other's; and no two name the same browser, monitor or relay at one time. The template directory,
which they share, is no session's. -/
theorem lives_apart (hs : f.living.Reachable s) (hrun : f.living.Run s is u) {i j : Nat}
    (hij : i ≠ j) {op op' : LifeOp} (hop : s.next i = some op) (hop' : u.next j = some op')
    {n n' : Name} (hn : n ∈ op.names) (hn' : n' ∈ op'.names)
    (hwhen : n.durable = true ∨ is = []) : n.Apart n' := by
  obtain ⟨hnamed, owned, hshared⟩ := living_divided hs
  have hown := Divided.names_own hshared hop n hn
  obtain ⟨hnamed', owned', hshared', hkept⟩ := hshared.run hnamed instanceHost_divides
    (fun p => living_made) hrun (·.given = true)
    (fun _ _ _ _ _ heffect hgiven hmem => LifeEffect.keeps_given heffect hgiven hmem)
    (fun _ _ _ _ hdrop => hdrop.elim)
  have hlength : ∀ {owned : Nat → Finset Thing}, Divided f u owned → ∀ (k l : Nat) (id id' : Text),
      .name id ∈ owned k → .name id' ∈ owned l → id.length = id'.length := by
    intro owned hdivided k l id id' hid hid'
    have huuid := hnamed'.uuid id ((hdivided.held _).2 ⟨k, hid⟩)
    have huuid' := hnamed'.uuid id' ((hdivided.held _).2 ⟨l, hid'⟩)
    exact huuid.length.trans huuid'.length.symm
  rcases hwhen with hdurable | hnow
  · have hlater := hown.durable hdurable fun x hx hgiven => hkept i x hgiven hx
    exact hlater.apart (Divided.names_own hshared' hop' n' hn') (hshared'.apart i j hij)
      (hlength hshared' i j)
  · subst hnow
    cases hrun.eq_of_nil
    exact hown.apart (Divided.names_own hshared hop' n' hn') (hshared.apart i j hij)
      (hlength hshared i j)

theorem no_template {n : Nat} :
    instanceHost.does ⟨held, n⟩ (.factory .templateDir) (none : Option Text) ⟨held, n⟩ :=
  instanceHost_does (.factory (.settled rfl)) rfl

/-- Two sessions that are about to make their directories. -/
theorem lives_apart_two : ∃ s, plainFactory.living.Reachable s ∧
    s.next 0 = some (.factory (.createDirAll firstDirs)) ∧
      s.next 1 = some (.factory (.createDirAll secondDirs)) ∧
        Name.Apart (.root firstDirs.root) (.userDataDir secondDirs.userDataDir) := by
  have hnone : plainFactory.living.Reachable ⟨⟨∅, 0⟩, []⟩ := .init ⟨rfl, rfl⟩
  have hone := hnone.step (.call ⟨.pooled false, rfl⟩)
  have htwo := hone.step (.call ⟨.pooled false, rfl⟩)
  have hfirst := htwo.step (.goesOn (i := 0) rfl
    (instanceHost_does (.factory (.newId isUuid_firstId (Finset.notMem_empty _))) rfl))
  have hfirst' := hfirst.step (.goesOn (i := 0) rfl no_template)
  have hsecond := hfirst'.step (.goesOn (i := 1) rfl
    (instanceHost_does (.factory (.newId isUuid_secondId (by decide +kernel))) rfl))
  have hboth := hsecond.step (.goesOn (i := 1) rfl no_template)
  refine ⟨_, hboth, rfl, rfl, ?_⟩
  exact lives_apart hboth .nil Nat.zero_ne_one rfl rfl List.mem_cons_self
    (List.mem_cons_of_mem _ List.mem_cons_self) (.inl rfl)

end BrowserServe
