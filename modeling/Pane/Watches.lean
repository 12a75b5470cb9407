import Pane.Offers

namespace Pane.Watches

open Pane.HashTable Pane.Messages Pane.Routing Pane.Server Pane.Server.ServerState
open Pane.ServerFrame Pane.ServerActor Pane.RouteTable Pane.Offers

abbrev Sets := Table ConnectionId (HashSet ConnectionId)

def Listed (m : Sets) (key member : ConnectionId) : Prop :=
  ∃ set, m.lookup key = some set ∧ member ∈ set

def Tight (m : Sets) : Prop := ∀ key set, m.lookup key = some set → ∃ member, member ∈ set

section Sets

variable {m : Sets} {key member k d : ConnectionId}

theorem listed_iff (m : Sets) (k d : ConnectionId) : Listed m k d ↔ d ∈ (m.lookup k).getD ∅ := by
  unfold Listed
  cases m.lookup k with
  | none => simp
  | some set => simp

theorem listed_addMember :
    Listed (addMember key member m) k d ↔ (k = key ∧ d = member) ∨ Listed m k d := by
  rw [listed_iff, listed_iff, addMember, lookup_insert]
  by_cases hk : k = key
  · subst hk
    simp
  · simp [hk]

theorem listed_erase : Listed (m.erase key) k d ↔ Listed m k d ∧ k ≠ key := by
  rw [listed_iff, listed_iff, lookup_erase]
  by_cases hk : k = key
  · simp [hk]
  · simp [hk]

theorem listed_dropMember :
    Listed (dropMember key member m) k d ↔ Listed m k d ∧ ¬ (k = key ∧ d = member) := by
  cases hl : m.lookup key with
  | none =>
    simp only [dropMember, hl]
    refine ⟨fun h => ⟨h, ?_⟩, And.left⟩
    rintro ⟨rfl, -⟩
    obtain ⟨set, hset, -⟩ := h
    rw [hl] at hset
    cases hset
  | some set =>
    simp only [dropMember, hl]
    by_cases hk : k = key
    · subst hk
      have hbefore : Listed m k d ↔ d ∈ set := by rw [listed_iff, hl, Option.getD_some]
      have hafter : d ∈ set.erase member ↔ d ∈ set ∧ ¬ d = member := by
        rw [AList.mem_erase]
        exact and_comm
      rw [hbefore]
      split
      · next hempty =>
        have hnone : d ∉ set.erase member := by
          rw [AList.mem_keys, hempty]
          exact List.not_mem_nil
        rw [listed_erase]
        simp only [ne_eq, not_true_eq_false, and_false, true_and, false_iff]
        rwa [← hafter]
      · rw [listed_iff, lookup_insert, if_pos rfl, Option.getD_some, hafter]
        simp
    · split
      · rw [listed_erase]
        simp [hk]
      · rw [listed_iff, listed_iff, lookup_insert, if_neg hk]
        simp [hk]

theorem listed_foldl_dropMember {keys : List ConnectionId} :
    Listed (keys.foldl (fun m key => dropMember key member m) m) k d ↔
      Listed m k d ∧ ¬ (k ∈ keys ∧ d = member) := by
  induction keys generalizing m with
  | nil => simp
  | cons key keys ih =>
    rw [List.foldl_cons, ih, listed_dropMember, List.mem_cons]
    tauto

theorem tight_addMember (h : Tight m) : Tight (addMember key member m) := by
  intro k set hset
  rw [addMember, lookup_insert] at hset
  split at hset
  · obtain rfl := Option.some.inj hset
    exact ⟨member, (AList.mem_insert _).mpr (.inl rfl)⟩
  · exact h k set hset

theorem tight_erase (h : Tight m) : Tight (m.erase key) :=
  fun k set hset => h k set (lookup_of_lookup_erase hset).2

theorem tight_dropMember (h : Tight m) : Tight (dropMember key member m) := by
  unfold dropMember
  split
  · exact h
  · next set _ =>
    dsimp only
    split
    · exact tight_erase h
    · next hne =>
      intro k set' hset
      rw [lookup_insert] at hset
      split at hset
      · obtain rfl := Option.some.inj hset
        obtain ⟨c, hc⟩ := List.exists_mem_of_ne_nil _ hne
        exact ⟨c, AList.mem_keys.mpr hc⟩
      · exact h k set' hset

theorem tight_foldl_dropMember (h : Tight m) (keys : List ConnectionId) :
    Tight (keys.foldl (fun m key => dropMember key member m) m) := by
  induction keys generalizing m with
  | nil => exact h
  | cons key keys ih => exact ih (tight_dropMember h)

theorem mem_of_listed (h : Listed m k d) : k ∈ m := by
  obtain ⟨set, hset, -⟩ := h
  exact mem_of_lookup hset

theorem Tight.exists_listed (h : Tight m) (hk : k ∈ m) : ∃ d, Listed m k d := by
  obtain ⟨set, hset⟩ := mem_iff_lookup.mp hk
  obtain ⟨d, hd⟩ := h k set hset
  exact ⟨d, set, hset, hd⟩

end Sets

/-- What the server knows about panes and their watchers. -/
structure Registry where
  connAddresses : Table ConnectionId Address
  watchTable : Sets
  watcherReverse : Sets

def registry (s : ServerState) : Registry := ⟨s.connAddresses, s.watchTable, s.watcherReverse⟩

section Frame

variable (pc : Postcard) (accepts : Nat → Bool) (order : HashOrder)

@[simp] theorem registry_tryEnqueue (s : ServerState) (conn : ConnectionId) (service : UInt16)
    (payload : Bytes) : registry (s.tryEnqueue accepts conn service payload) = registry s := by
  unfold tryEnqueue
  split <;> rfl

@[simp] theorem registry_enqueueControl (s : ServerState) (conn : ConnectionId)
    (msg : ControlMessage) : registry (s.enqueueControl pc accepts conn msg) = registry s := by
  unfold enqueueControl
  split <;> simp

theorem registry_foldl_notifyPeer (peers : List Endpoint) (s : ServerState) :
    registry (peers.foldl (notifyPeer pc accepts) s) = registry s := by
  induction peers generalizing s with
  | nil => rfl
  | cons p ps ih => rw [List.foldl_cons, ih, notifyPeer, registry_enqueueControl]

theorem registry_foldl_notifyWatcher (connId : ConnectionId) (bytes : Bytes)
    (watchers : List ConnectionId) (s : ServerState) :
    registry (watchers.foldl (notifyWatcher accepts connId bytes) s) =
      { registry s with watcherReverse :=
          watchers.foldl (fun m w => dropMember w connId m) s.watcherReverse } := by
  induction watchers generalizing s with
  | nil => rfl
  | cons w ws ih =>
    have hw : registry (notifyWatcher accepts connId bytes s w) =
        { registry s with watcherReverse := dropMember w connId s.watcherReverse } := by
      have h := registry_tryEnqueue accepts s w 0 bytes
      simp only [registry, Registry.mk.injEq] at h
      simp only [registry, notifyWatcher, h]
    rw [List.foldl_cons, ih, hw]
    simp only [registry, Registry.mk.injEq] at hw
    rw [hw.2.2, List.foldl_cons]

theorem registry_declareInterest (s : ServerState) (connId : ConnectionId) (service : Uuid) :
    registry (s.declareInterest pc accepts connId service) = registry s := by
  unfold declareInterest
  split
  · rw [registry_enqueueControl, registry_enqueueControl]
    rfl
  · rw [registry_enqueueControl]
    rfl

theorem registry_revokeInterest (s : ServerState) (connId : ConnectionId) (sessionId : UInt16) :
    registry (s.revokeInterest pc accepts connId sessionId) = registry s := by
  unfold revokeInterest
  split
  · rfl
  · dsimp only
    rw [registry_enqueueControl, registry_enqueueControl]
    rfl

theorem registry_processService (s : ServerState) (connId : ConnectionId) (service : UInt16)
    (payload : Bytes) : registry (s.processService accepts connId service payload) = registry s := by
  unfold processService
  split
  · exact registry_tryEnqueue ..
  · rfl

end Frame

/-- The two tables of watches say the same, only registered panes are watched,
and the address of a pane is made from its connection. -/
structure Books (r : Registry) : Prop where
  mirrored : ∀ c w, Listed r.watchTable c w ↔ Listed r.watcherReverse w c
  tightWatched : Tight r.watchTable
  tightWatchers : Tight r.watcherReverse
  registered : ∀ c, c ∈ r.watchTable → c ∈ r.connAddresses
  address : ∀ c a, r.connAddresses.lookup c = some a → a = Address.local c.id

theorem books_new : Books (registry Server.new) := by
  refine ⟨fun c w => ?_, fun k set h => ?_, fun k set h => ?_, fun c h => ?_, fun c a h => ?_⟩
  · constructor <;>
    · rintro ⟨set, h, -⟩
      cases h
  · cases h
  · cases h
  · exact absurd h (AList.notMem_empty c)
  · cases h

/-- If a connection is watched, `process_disconnect` has an address to name in the
message for its watchers, and does not drop them from the one table alone. -/
def Announces (pc : Postcard) (s : ServerState) (conn : ConnectionId) : Prop :=
  ∀ watchers, s.watchTable.lookup conn = some watchers → ∃ addr bytes,
    s.connAddresses.lookup conn = some addr ∧
      pc.controlToAllocvec (.paneExited addr .disconnected) = some bytes

theorem announces_of_books {pc : Postcard} (hpc : pc.ControlRoundTrip) {s : ServerState}
    (h : Books (registry s)) (conn : ConnectionId) : Announces pc s conn := by
  intro watchers hwatchers
  obtain ⟨addr, haddr⟩ := mem_iff_lookup.mp (h.registered conn (mem_of_lookup hwatchers))
  obtain ⟨bytes, hbytes, -⟩ := hpc (.paneExited addr .disconnected)
  exact ⟨addr, bytes, haddr, hbytes⟩

structure Restricts (keep : ConnectionId → ConnectionId → Prop) (r r' : Registry) : Prop where
  addresses : r'.connAddresses = r.connAddresses
  watched : ∀ c w, Listed r'.watchTable c w ↔ Listed r.watchTable c w ∧ keep c w
  watchers : ∀ w c, Listed r'.watcherReverse w c ↔ Listed r.watcherReverse w c ∧ keep c w
  tightWatched : Tight r'.watchTable
  tightWatchers : Tight r'.watcherReverse

theorem Restricts.mirrored {keep : ConnectionId → ConnectionId → Prop} {r r' : Registry}
    (h : Restricts keep r r') (hr : ∀ c w, Listed r.watchTable c w ↔ Listed r.watcherReverse w c)
    (c w : ConnectionId) : Listed r'.watchTable c w ↔ Listed r'.watcherReverse w c := by
  rw [h.watched, h.watchers, hr]

theorem Restricts.stay {keep : ConnectionId → ConnectionId → Prop} {r : Registry}
    (hr : ∀ c w, Listed r.watchTable c w ↔ Listed r.watcherReverse w c)
    (hwatched : Tight r.watchTable) (hwatchers : Tight r.watcherReverse)
    (hkeep : ∀ c w, Listed r.watchTable c w → keep c w) : Restricts keep r r := by
  refine ⟨rfl, fun c w => ?_, fun w c => ?_, hwatched, hwatchers⟩
  · exact ⟨fun h => ⟨h, hkeep c w h⟩, And.left⟩
  · exact ⟨fun h => ⟨h, hkeep c w ((hr c w).mpr h)⟩, And.left⟩

section Removal

variable {pc : Postcard} (accepts : Nat → Bool) (order : HashOrder) {s : ServerState}

theorem restricts_notifyWatchers (hpc : pc.ControlRoundTrip) (h : Books (registry s))
    (conn : ConnectionId) :
    Restricts (fun c _ => c ≠ conn) (registry s)
      (registry (s.notifyWatchers pc accepts order conn)) := by
  cases hw : s.watchTable.lookup conn with
  | none =>
    have hstay : s.notifyWatchers pc accepts order conn = s := by simp [notifyWatchers, hw]
    rw [hstay]
    apply Restricts.stay h.mirrored h.tightWatched h.tightWatchers
    rintro c w ⟨set, hset, -⟩ rfl
    rw [show (registry s).watchTable.lookup c = none from hw] at hset
    cases hset
  | some watchers =>
    obtain ⟨addr, bytes, haddr, hbytes⟩ := announces_of_books hpc h conn watchers hw
    have hregistry : registry (s.notifyWatchers pc accepts order conn) =
        ⟨s.connAddresses, s.watchTable.erase conn, (order.conns.arrange watchers.keys).foldl
          (fun m w => dropMember w conn m) s.watcherReverse⟩ := by
      simp only [notifyWatchers, hw, haddr, hbytes, registry_foldl_notifyWatcher]
      rfl
    rw [hregistry]
    refine ⟨rfl, fun c w => listed_erase, fun w c => ?_, tight_erase h.tightWatched,
      tight_foldl_dropMember h.tightWatchers _⟩
    rw [listed_foldl_dropMember, Order.mem_arrange, ← AList.mem_keys]
    refine and_congr_right (fun hl => not_congr ⟨And.right, ?_⟩)
    rintro rfl
    have hback := (h.mirrored c w).mpr hl
    rw [listed_iff, show (registry s).watchTable.lookup c = some watchers from hw] at hback
    exact ⟨hback, rfl⟩

theorem restricts_forgetWatches (conn : ConnectionId)
    (hmirrored : ∀ c w, Listed s.watchTable c w ↔ Listed s.watcherReverse w c)
    (hwatched : Tight s.watchTable) (hwatchers : Tight s.watcherReverse) :
    Restricts (fun _ w => w ≠ conn) (registry s) (registry (s.forgetWatches order conn)) := by
  cases hw : s.watcherReverse.lookup conn with
  | none =>
    have hstay : s.forgetWatches order conn = s := by simp [forgetWatches, hw]
    rw [hstay]
    apply Restricts.stay hmirrored hwatched hwatchers
    rintro c w hl rfl
    obtain ⟨set, hset, -⟩ := (hmirrored c w).mp hl
    rw [hw] at hset
    cases hset
  | some watched =>
    have hregistry : registry (s.forgetWatches order conn) =
        ⟨s.connAddresses, (order.conns.arrange watched.keys).foldl
          (fun m c => dropMember c conn m) s.watchTable, s.watcherReverse.erase conn⟩ := by
      simp only [forgetWatches, hw, registry]
    rw [hregistry]
    refine ⟨rfl, fun c w => ?_, fun w c => listed_erase, tight_foldl_dropMember hwatched _,
      tight_erase hwatchers⟩
    rw [listed_foldl_dropMember, Order.mem_arrange, ← AList.mem_keys]
    refine and_congr_right (fun hl => not_congr ⟨And.right, ?_⟩)
    rintro rfl
    have hback := (hmirrored c w).mp hl
    rw [listed_iff, hw] at hback
    exact ⟨hback, rfl⟩

/-- A connection that goes is neither watched nor a watcher afterwards, and the
other watches stay. -/
structure Removes (conn : ConnectionId) (r r' : Registry) : Prop where
  addresses : r'.connAddresses = r.connAddresses.erase conn
  watched : ∀ c w, Listed r'.watchTable c w ↔ Listed r.watchTable c w ∧ c ≠ conn ∧ w ≠ conn
  books : Books r'

theorem registry_processDisconnect (s : ServerState) (conn : ConnectionId) :
    registry (s.processDisconnect pc accepts order conn) =
      { registry ((s.notifyWatchers pc accepts order conn).forgetWatches order conn) with
        connAddresses := ((s.notifyWatchers pc accepts order conn).forgetWatches order
          conn).connAddresses.erase conn } := by
  unfold processDisconnect
  dsimp only
  rw [registry_foldl_notifyPeer]
  rfl

theorem removes_processDisconnect (hpc : pc.ControlRoundTrip) (h : Books (registry s))
    (conn : ConnectionId) :
    Removes conn (registry s) (registry (s.processDisconnect pc accepts order conn)) := by
  have hnotify := restricts_notifyWatchers accepts order hpc h conn
  have hmirrored := hnotify.mirrored h.mirrored
  have hforget := restricts_forgetWatches order conn hmirrored hnotify.tightWatched
    hnotify.tightWatchers
  rw [registry_processDisconnect]
  have haddresses : ((s.notifyWatchers pc accepts order conn).forgetWatches order
      conn).connAddresses = s.connAddresses := hforget.addresses.trans hnotify.addresses
  have hlisted : ∀ c w, Listed ((s.notifyWatchers pc accepts order conn).forgetWatches order
      conn).watchTable c w ↔ Listed s.watchTable c w ∧ c ≠ conn ∧ w ≠ conn := by
    intro c w
    exact (hforget.watched c w).trans ((and_congr_left' (hnotify.watched c w)).trans and_assoc)
  refine ⟨congrArg (AList.erase conn) haddresses, hlisted,
    ⟨hforget.mirrored hmirrored, hforget.tightWatched, hforget.tightWatchers, ?_, ?_⟩⟩
  · intro c hc
    obtain ⟨w, hw⟩ := hforget.tightWatched.exists_listed hc
    obtain ⟨hw, hne, -⟩ := (hlisted c w).mp hw
    refine AList.mem_erase.mpr ⟨hne, ?_⟩
    rw [haddresses]
    exact h.registered c (mem_of_listed hw)
  · intro c a ha
    have hbefore := (lookup_of_lookup_erase ha).2
    rw [haddresses] at hbefore
    exact h.address c a hbefore

end Removal

/-- All a call can do to the registry. -/
inductive Rewatches (pc : Postcard) (r : Registry) (c : Call) : Registry → Prop
  | join (conn : ConnectionId) (hc : joining c = some conn) : Rewatches pc r c
      { r with connAddresses := r.connAddresses.insert conn (Address.local conn.id) }
  | leave (conn : ConnectionId) (hc : leaving c = some conn) {r' : Registry}
      (h : Removes conn r r') : Rewatches pc r c r'
  | watch (conn targetConn : ConnectionId) (target : Address)
      (hc : controlOf pc c = some (conn, .watch target))
      (ht : r.connAddresses.lookup targetConn = some target) : Rewatches pc r c
      { r with
        watchTable := addMember targetConn conn r.watchTable
        watcherReverse := addMember conn targetConn r.watcherReverse }
  | unwatch (conn targetConn : ConnectionId) (target : Address)
      (hc : controlOf pc c = some (conn, .unwatch target))
      (ht : r.connAddresses.lookup targetConn = some target) : Rewatches pc r c
      { r with
        watchTable := dropMember targetConn conn r.watchTable
        watcherReverse := dropMember conn targetConn r.watcherReverse }
  | keep (hj : joining c = none) (hl : leaving c = none)
      (ht : ∀ conn target, controlOf pc c = some (conn, .watch target) ∨
        controlOf pc c = some (conn, .unwatch target) → ∀ d, r.connAddresses.lookup d ≠ some target) :
      Rewatches pc r c r

theorem local_injective {c d : ConnectionId} (h : Address.local c.id = Address.local d.id) :
    c = d := by
  obtain ⟨c⟩ := c
  obtain ⟨d⟩ := d
  cases h
  rfl

theorem Books.unique {r : Registry} (h : Books r) {c d : ConnectionId} {t : Address}
    (hc : r.connAddresses.lookup c = some t) (hd : r.connAddresses.lookup d = some t) : c = d :=
  local_injective ((h.address c t hc).symm.trans (h.address d t hd))

section Calls

variable {pc : Postcard} {s : ServerState}

theorem resolveConn_eq_some (h : Books (registry s)) (order : HashOrder) (target : Address)
    (c : ConnectionId) :
    s.resolveConn order target = some c ↔ s.connAddresses.lookup c = some target := by
  have hsome : ∀ {d}, s.resolveConn order target = some d →
      s.connAddresses.lookup d = some target := by
    intro d hd
    obtain ⟨e, he, rfl⟩ := Option.map_eq_some_iff.mp hd
    have htarget := List.find?_some he
    have hmem := (Order.mem_arrange _ _ _).mp (List.mem_of_find?_eq_some he)
    rw [decide_eq_true_eq] at htarget
    rw [← htarget]
    exact mem_entries_iff.mp hmem
  refine ⟨hsome, fun hc => ?_⟩
  cases hr : s.resolveConn order target with
  | none =>
    have hnone := List.find?_eq_none.mp (Option.map_eq_none_iff.mp hr) ⟨c, target⟩
      ((Order.mem_arrange _ _ _).mpr (mem_entries_iff.mpr hc))
    simp at hnone
  | some d =>
    rw [h.unique hc (hsome hr)]

theorem resolveConn_eq_none (h : Books (registry s)) (order : HashOrder) (target : Address) :
    s.resolveConn order target = none ↔ ∀ d, s.connAddresses.lookup d ≠ some target := by
  refine ⟨fun hr d hd => ?_, fun hnone => ?_⟩
  · rw [(resolveConn_eq_some h order target d).mpr hd] at hr
    cases hr
  · cases hr : s.resolveConn order target with
    | none => rfl
    | some d => exact absurd ((resolveConn_eq_some h order target d).mp hr) (hnone d)

variable (accepts : Nat → Bool)

theorem processControl_rewatches (h : Books (registry s)) (order : HashOrder)
    (conn : ConnectionId) (payload : Bytes) :
    Rewatches pc (registry s) (.event order (.frame conn 0 payload))
      (registry (s.processControl pc accepts order conn payload)) := by
  have hcontrol : controlOf pc (.event order (.frame conn 0 payload)) =
      (pc.controlFromBytes payload).map (fun msg => (conn, msg)) := by rw [controlOf, if_pos rfl]
  have hother : ∀ {r'}, r' = registry s → (∀ target, pc.controlFromBytes payload ≠ some (.watch target)) →
      (∀ target, pc.controlFromBytes payload ≠ some (.unwatch target)) →
      Rewatches pc (registry s) (.event order (.frame conn 0 payload)) r' := by
    rintro r' rfl hwatch hunwatch
    refine .keep rfl rfl ?_
    rintro d target (hc | hc) <;> rw [hcontrol] at hc <;>
      obtain ⟨msg, hmsg, he⟩ := Option.map_eq_some_iff.mp hc <;> cases he
    · exact absurd hmsg (hwatch target)
    · exact absurd hmsg (hunwatch target)
  unfold processControl
  split
  · next hmsg => exact hother (registry_declareInterest ..) (by simp [hmsg]) (by simp [hmsg])
  · next hmsg => exact hother (registry_revokeInterest ..) (by simp [hmsg]) (by simp [hmsg])
  · next target hmsg =>
    rw [hmsg, Option.map_some] at hcontrol
    cases hr : s.resolveConn order target with
    | some targetConn =>
      simp only [watch, hr]
      exact .watch conn targetConn target hcontrol ((resolveConn_eq_some h order target _).mp hr)
    | none =>
      simp only [watch, hr, registry_enqueueControl]
      refine .keep rfl rfl ?_
      rintro d t (hc | hc) <;> rw [hcontrol] at hc <;> cases hc
      exact (resolveConn_eq_none h order target).mp hr
  · next target hmsg =>
    rw [hmsg, Option.map_some] at hcontrol
    cases hr : s.resolveConn order target with
    | some targetConn =>
      simp only [unwatch, hr]
      exact .unwatch conn targetConn target hcontrol ((resolveConn_eq_some h order target _).mp hr)
    | none =>
      simp only [unwatch, hr]
      refine .keep rfl rfl ?_
      rintro d t (hc | hc) <;> rw [hcontrol] at hc <;> cases hc
      exact (resolveConn_eq_none h order target).mp hr
  · next hd hr hw hu => exact hother rfl hw hu

theorem exec_rewatches (hpc : pc.ControlRoundTrip) (h : Books (registry s)) (c : Call) :
    Rewatches pc (registry s) c (registry (exec pc accepts s c)) := by
  have hremove : ∀ {c} order conn, leaving c = some conn →
      Rewatches pc (registry s) c (registry (s.processDisconnect pc accepts order conn)) :=
    fun order conn hc => .leave conn hc (removes_processDisconnect accepts order hpc h conn)
  cases c with
  | drain => exact .keep rfl rfl (fun _ _ hc => by obtain hc | hc := hc <;> cases hc)
  | tearDown order conn => exact hremove order conn rfl
  | event order event =>
    cases event with
    | newConnection conn hello => exact .join conn rfl
    | disconnected conn => exact hremove order conn rfl
    | frame conn service payload =>
      simp only [exec, processEvent, processFrame]
      split
      · next hservice =>
        subst hservice
        exact processControl_rewatches accepts h order conn payload
      · next hservice =>
        rw [registry_processService]
        refine .keep rfl rfl (fun _ _ hc => ?_)
        simp [controlOf, hservice] at hc

theorem books_rewatches {r r' : Registry} {c : Call} (h : Books r) (hr : Rewatches pc r c r') :
    Books r' := by
  cases hr with
  | leave conn hc hremoves => exact hremoves.books
  | keep => exact h
  | join conn hc =>
    refine ⟨h.mirrored, h.tightWatched, h.tightWatchers, fun d hd => ?_, fun d a ha => ?_⟩
    · exact (AList.mem_insert _).mpr (.inr (h.registered d hd))
    · rw [lookup_insert] at ha
      split at ha
      · next hd =>
        rw [hd]
        exact (Option.some.inj ha).symm
      · exact h.address d a ha
  | watch conn targetConn target hc ht =>
    refine ⟨fun d w => ?_, tight_addMember h.tightWatched, tight_addMember h.tightWatchers,
      fun d hd => ?_, h.address⟩
    · show Listed (addMember _ _ _) d w ↔ Listed (addMember _ _ _) w d
      rw [listed_addMember, listed_addMember, h.mirrored, and_comm]
    · obtain rfl | hd := (AList.mem_insert _).mp hd
      · exact mem_of_lookup ht
      · exact h.registered d hd
  | unwatch conn targetConn target hc ht =>
    refine ⟨fun d w => ?_, tight_dropMember h.tightWatched, tight_dropMember h.tightWatchers,
      fun d hd => ?_, h.address⟩
    · show Listed (dropMember _ _ _) d w ↔ Listed (dropMember _ _ _) w d
      rw [listed_dropMember, listed_dropMember, h.mirrored, and_comm (a := d = _)]
    · obtain ⟨w, hw⟩ := (tight_dropMember h.tightWatched).exists_listed hd
      exact h.registered d (mem_of_listed (listed_dropMember.mp hw).1)

structure Addressed (known : List ConnectionId) (s : ServerState) : Prop where
  sound : Sound known s.toRoutingState
  books : Books (registry s)
  addresses : ∀ c, c ∈ s.connAddresses → c ∈ s.writers

theorem addressed_new : Addressed [] Server.new :=
  ⟨sound_new, books_new, fun c hc => absurd hc (AList.notMem_empty c)⟩

theorem addressed_rewatches {known : List ConnectionId} {s : ServerState} {c : Call}
    (h : Addressed known s)
    (hr : Rewatches pc (registry s) c (registry (exec pc accepts s c))) (d : ConnectionId)
    (hd : d ∈ (exec pc accepts s c).connAddresses) : d ∈ (exec pc accepts s c).writers := by
  rw [mem_writers_exec]
  change d ∈ (registry (exec pc accepts s c)).connAddresses at hd
  generalize registry (exec pc accepts s c) = r at hr hd
  cases hr with
  | join conn hc =>
    obtain rfl | hd := (AList.mem_insert _).mp hd
    · exact .inl hc
    · exact .inr ⟨h.addresses d hd, by simp [leaving_of_joining hc]⟩
  | leave conn hc hremoves =>
    rw [hremoves.addresses] at hd
    obtain ⟨hne, hd⟩ := AList.mem_erase.mp hd
    exact .inr ⟨h.addresses d hd, by rw [hc]; exact fun he => hne (Option.some.inj he).symm⟩
  | watch conn targetConn target hc ht =>
    exact .inr ⟨h.addresses d hd, by simp [leaving_of_controlOf hc]⟩
  | unwatch conn targetConn target hc ht =>
    exact .inr ⟨h.addresses d hd, by simp [leaving_of_controlOf hc]⟩
  | keep hj hl ht => exact .inr ⟨h.addresses d hd, by simp [hl]⟩

theorem addressed_exec (hpc : pc.ControlRoundTrip) {known : List ConnectionId} {c : Call}
    (h : Addressed known s) (hc : c.Allowed known) :
    Addressed (c.opens known) (exec pc accepts s c) := by
  have hrewatches := exec_rewatches accepts hpc h.books c
  exact ⟨sound_exec pc accepts h.sound hc, books_rewatches h.books hrewatches,
    addressed_rewatches accepts h hrewatches⟩

end Calls

end Pane.Watches
