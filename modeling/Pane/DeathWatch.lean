import Pane.RoutePipes
import Pane.Watches

namespace Pane.DeathWatch

open Pane.HashTable Pane.Messages Pane.Routing Pane.Server Pane.ServerFrame Pane.ServerActor
open Pane.RouteSymmetry Pane.RouteTable Pane.Offers Pane.RoutePipes Pane.Watches
open Pane.PostcardFormat

variable (pc : Postcard) (accepts : Nat → Bool)

def exitOf (t : Address) : ControlMessage → Option ExitReason
  | .paneExited address reason => if address = t then some reason else none
  | _ => none

def exits (s : ServerState) (w : ConnectionId) (t : Address) : Nat :=
  (s.offered.filterMap (heard pc w (exitOf t))).length

def Registered (s : ServerState) (t : Address) : Prop :=
  ∃ d ∈ s.connAddresses.keys, s.connAddresses.lookup d = some t

instance (s : ServerState) (t : Address) : Decidable (Registered s t) :=
  inferInstanceAs (Decidable (∃ d ∈ s.connAddresses.keys, s.connAddresses.lookup d = some t))

def Kills (t : Address) (s : ServerState) (c : Call) : Prop :=
  ∃ d ∈ leaving c, s.connAddresses.lookup d = some t

instance (t : Address) (s : ServerState) (c : Call) : Decidable (Kills t s c) :=
  inferInstanceAs (Decidable (∃ d ∈ leaving c, s.connAddresses.lookup d = some t))

/-- Whether a watch is outstanding after a call: one that was processed while
the target was registered, and neither taken back nor ended by the removal of
the watcher or of the target. -/
def stands (w : ConnectionId) (t : Address) (before : Bool) (p : ServerState × Call) : Bool :=
  if controlOf pc p.2 = some (w, .watch t) then before || decide (Registered p.1 t)
  else if controlOf pc p.2 = some (w, .unwatch t) then false
  else before && decide (leaving p.2 ≠ some w) && decide (¬ Kills t p.1 p.2)

def outstanding (w : ConnectionId) (t : Address) (past : List (ServerState × Call)) : Bool :=
  past.foldl (stands pc w t) false

theorem registered_iff (s : ServerState) (t : Address) :
    Registered s t ↔ ∃ d, s.connAddresses.lookup d = some t := by
  refine ⟨fun ⟨d, _, h⟩ => ⟨d, h⟩, fun ⟨d, h⟩ => ⟨d, ?_, h⟩⟩
  exact AList.mem_keys.mp (mem_of_lookup h)

variable {pc}

def Watched (r : Registry) (w : ConnectionId) (t : Address) : Prop :=
  ∃ d, r.connAddresses.lookup d = some t ∧ Listed r.watchTable d w

section Step

variable {known : List ConnectionId} {s : ServerState} {c : Call} {w : ConnectionId} {t : Address}
  {before : Bool}

theorem kills_iff : Kills t s c ↔ ∃ d, leaving c = some d ∧ s.connAddresses.lookup d = some t := by
  simp [Kills]

theorem stands_of_leaving {conn : ConnectionId} (hc : leaving c = some conn) :
    stands pc w t before (s, c) = true ↔
      before = true ∧ conn ≠ w ∧ s.connAddresses.lookup conn ≠ some t := by
  have hcontrol : ∀ m, controlOf pc c ≠ some m := by
    rintro ⟨d, msg⟩ h
    rw [leaving_of_controlOf h] at hc
    cases hc
  simp [stands, hcontrol, kills_iff, hc, and_assoc]

theorem stands_of_staying (hc : leaving c = none) :
    stands pc w t before (s, c) = true ↔
      (before = true ∨ controlOf pc c = some (w, .watch t) ∧ Registered s t) ∧
        controlOf pc c ≠ some (w, .unwatch t) := by
  have hkills : ¬ Kills t s c := by simp [kills_iff, hc]
  by_cases hwatch : controlOf pc c = some (w, .watch t)
  · simp [stands, hwatch]
  · by_cases hunwatch : controlOf pc c = some (w, .unwatch t)
    · simp [stands, hunwatch]
    · simp [stands, hwatch, hunwatch, hc, hkills]

theorem watched_join {r : Registry} {conn : ConnectionId} {address : Address}
    (hfresh : ∀ v, ¬ Listed r.watchTable conn v) :
    Watched { r with connAddresses := r.connAddresses.insert conn address } w t ↔
      Watched r w t := by
  have hlookup (d : ConnectionId) (hl : Listed r.watchTable d w) :
      (r.connAddresses.insert conn address).lookup d = r.connAddresses.lookup d := by
    rw [lookup_insert, if_neg]
    rintro rfl
    exact hfresh w hl
  constructor
  · rintro ⟨d, hd, hl⟩
    exact ⟨d, (hlookup d hl).symm.trans hd, hl⟩
  · rintro ⟨d, hd, hl⟩
    exact ⟨d, (hlookup d hl).trans hd, hl⟩

theorem watched_removes {r r' : Registry} {conn : ConnectionId} (hbooks : Books r)
    (h : Removes conn r r') :
    Watched r' w t ↔ Watched r w t ∧ conn ≠ w ∧ r.connAddresses.lookup conn ≠ some t := by
  rw [Watched, h.addresses]
  constructor
  · rintro ⟨d, hd, hlisted⟩
    obtain ⟨hne, hd⟩ := lookup_of_lookup_erase hd
    obtain ⟨hlisted, -, hw⟩ := (h.watched d w).mp hlisted
    exact ⟨⟨d, hd, hlisted⟩, hw.symm, fun ht => hne (hbooks.unique hd ht)⟩
  · rintro ⟨⟨d, hd, hlisted⟩, hw, ht⟩
    have hne : d ≠ conn := by
      rintro rfl
      exact ht hd
    refine ⟨d, ?_, (h.watched d w).mpr ⟨hlisted, hne, hw.symm⟩⟩
    rw [lookup_erase, if_neg hne, hd]

theorem watched_rewatches {r' : Registry} (h : Addressed known s) (hc : c.Allowed known)
    (hr : Rewatches pc (registry s) c r')
    (hbefore : before = true ↔ Watched (registry s) w t) :
    stands pc w t before (s, c) = true ↔ Watched r' w t := by
  cases hr with
  | join conn hj =>
    have hfresh (v : ConnectionId) : ¬ Listed (registry s).watchTable conn v := by
      intro hl
      apply joining_notMem hc hj
      exact h.sound.within.writers conn (h.addresses conn (h.books.registered conn (mem_of_listed hl)))
    have hother : ∀ m, controlOf pc c ≠ some m := by
      rintro ⟨d, msg⟩ hm
      obtain ⟨order, payload, rfl, -⟩ := controlOf_eq_some hm
      cases hj
    rw [stands_of_staying (leaving_of_joining hj), hbefore, watched_join hfresh]
    simp only [hother, false_and, or_false, ne_eq, not_false_eq_true, and_true]
  | leave conn hl hremoves =>
    rw [stands_of_leaving hl, hbefore, watched_removes h.books hremoves]
    exact Iff.rfl
  | watch conn targetConn target hm htarget =>
    rw [stands_of_staying (leaving_of_controlOf hm), hbefore, hm, registered_iff]
    simp only [Watched, listed_addMember]
    constructor
    · rintro ⟨⟨d, hd, hl⟩ | ⟨he, d, hd⟩, -⟩
      · exact ⟨d, hd, .inr hl⟩
      · cases he
        exact ⟨targetConn, htarget, .inl ⟨rfl, rfl⟩⟩
    · rintro ⟨d, hd, ⟨rfl, rfl⟩ | hl⟩
      · obtain rfl := Option.some.inj (htarget.symm.trans hd)
        exact ⟨.inr ⟨rfl, d, hd⟩, by simp⟩
      · exact ⟨.inl ⟨d, hd, hl⟩, by simp⟩
  | unwatch conn targetConn target hm htarget =>
    rw [stands_of_staying (leaving_of_controlOf hm), hbefore, hm]
    simp only [Watched, listed_dropMember]
    constructor
    · rintro ⟨⟨d, hd, hl⟩ | ⟨he, -⟩, hne⟩
      · refine ⟨d, hd, hl, ?_⟩
        rintro ⟨rfl, rfl⟩
        rw [Option.some.inj (htarget.symm.trans hd)] at hne
        exact hne rfl
      · cases he
    · rintro ⟨d, hd, hl, hne⟩
      refine ⟨.inl ⟨d, hd, hl⟩, ?_⟩
      intro he
      cases he
      exact hne ⟨h.books.unique hd htarget, rfl⟩
  | keep hj hl ht =>
    rw [stands_of_staying hl, hbefore, registered_iff]
    constructor
    · rintro ⟨hwatched | ⟨hm, d, hd⟩, -⟩
      · exact hwatched
      · exact absurd hd (ht w t (.inl hm) d)
    · rintro ⟨d, hd, hlisted⟩
      exact ⟨.inl ⟨d, hd, hlisted⟩, fun hm => ht w t (.inr hm) d hd⟩

theorem told_all (read : ControlMessage → Option ExitReason) (m : ControlMessage)
    {ws : List ConnectionId} (hws : ws.Nodup) :
    (ws.map (fun v => (v, m))).filterMap (meant w read) = if w ∈ ws then (read m).toList else [] := by
  induction ws with
  | nil => rfl
  | cons v ws ih =>
    obtain ⟨hv, hws⟩ := List.nodup_cons.mp hws
    rw [List.map_cons, List.filterMap_cons, ih hws]
    by_cases hw : v = w
    · subst hw
      cases hread : read m <;> simp [meant, hv, hread]
    · have hmem : w ∈ v :: ws ↔ w ∈ ws := by simp [Ne.symm hw]
      simp only [meant, if_neg hw, hmem]

theorem told_disconnect (h : Books (registry s)) (order : HashOrder) (conn : ConnectionId) :
    (disconnectNotices order s conn).filterMap (meant w (exitOf t)) =
      if s.connAddresses.lookup conn = some t ∧ w ∈ (s.watchTable.lookup conn).getD ∅
      then [.disconnected] else [] := by
  have hlost : ∀ peers, (lostNotices peers).filterMap (meant w (exitOf t)) = [] := by
    intro peers
    simp [lostNotices, List.filterMap_map, Function.comp_def, meant, exitOf]
  rw [disconnectNotices, List.filterMap_append, hlost, List.append_nil, watcherNotices]
  cases hwatchers : s.watchTable.lookup conn with
  | none => simp
  | some watchers =>
    obtain ⟨addr, haddr⟩ := mem_iff_lookup.mp (h.registered conn (mem_of_lookup hwatchers))
    change s.connAddresses.lookup conn = some addr at haddr
    simp only [haddr]
    rw [told_all _ _ (order.conns.nodup_arrange watchers.keys_nodup)]
    by_cases ht : addr = t
    · simp [exitOf, ht, AList.mem_keys]
    · simp [exitOf, ht]

theorem told_control (h : Books (registry s)) (order : HashOrder) (conn : ConnectionId)
    {payload : Bytes} :
    (controlNotices pc order s conn payload).filterMap (meant w (exitOf t)) =
      if pc.controlFromBytes payload = some (.watch t) ∧ conn = w ∧ ¬ Registered s t
      then [.disconnected] else [] := by
  cases hmsg : pc.controlFromBytes payload with
  | none => simp [controlNotices, hmsg]
  | some msg =>
    cases msg with
    | declareInterest service version =>
      simp only [controlNotices, hmsg, declareNotices]
      obtain ⟨_, he⟩ | ⟨-, he⟩ | ⟨p, -, -, -, ⟨-, he⟩ | ⟨-, he⟩⟩ :=
        RoutingState.handleDeclareInterest_cases conn service s.toRoutingState <;>
          simp [he, meant, exitOf]
    | revokeInterest n =>
      simp only [controlNotices, hmsg, revokeNotices]
      split <;> simp [meant, exitOf]
    | watch target =>
      simp only [controlNotices, hmsg, watchNotices]
      cases hr : s.resolveConn order target with
      | some d =>
        have hd := (resolveConn_eq_some h order target d).mp hr
        have hregistered : target = t → Registered s t :=
          fun he => (registered_iff s t).mpr ⟨d, he ▸ hd⟩
        rw [if_neg, List.filterMap_nil]
        rintro ⟨he, -, hnot⟩
        cases he
        exact hnot (hregistered rfl)
      | none =>
        have hnone : ¬ Registered s target := by
          rw [registered_iff]
          rintro ⟨d, hd⟩
          exact (resolveConn_eq_none h order target).mp hr d hd
        by_cases ht : target = t
        · subst ht
          by_cases hw : conn = w <;> simp [meant, exitOf, hw, hnone]
        · by_cases hw : conn = w <;> simp [meant, exitOf, hw, ht]
    | _ => simp [controlNotices, hmsg]

theorem told_end (h : Addressed known s) (hbefore : before = true ↔ Watched (registry s) w t)
    {order : HashOrder} {conn : ConnectionId} (hc : leaving c = some conn)
    (hnotices : notices pc s c = disconnectNotices order s conn) :
    ((notices pc s c).filterMap (meant w (exitOf t))).length =
      if (before = true ∧ Kills t s c) ∨
        (controlOf pc c = some (w, .watch t) ∧ ¬ Registered s t) then 1 else 0 := by
  have hcontrol : ∀ m, controlOf pc c ≠ some m := by
    rintro ⟨d, msg⟩ hm
    rw [leaving_of_controlOf hm] at hc
    cases hc
  have hlisted : before = true ∧ Kills t s c ↔
      s.connAddresses.lookup conn = some t ∧ w ∈ (s.watchTable.lookup conn).getD ∅ := by
    rw [← listed_iff, hbefore, kills_iff, hc]
    constructor
    · rintro ⟨⟨d, hd, hl⟩, e, he, ht⟩
      cases he
      obtain rfl := h.books.unique hd ht
      exact ⟨ht, hl⟩
    · rintro ⟨ht, hl⟩
      exact ⟨⟨conn, ht, hl⟩, conn, rfl, ht⟩
  simp only [hlisted, hcontrol, false_and, or_false]
  rw [hnotices, told_disconnect h.books]
  split <;> rfl

/-- Of the messages of a call, those about the end of the pane at `t` that are
meant for `w`: one for a watch that comes to its end, one for a watch in vain. -/
theorem exits_told (h : Addressed known s) (hbefore : before = true ↔ Watched (registry s) w t) :
    ((notices pc s c).filterMap (meant w (exitOf t))).length =
      if (before = true ∧ Kills t s c) ∨
        (controlOf pc c = some (w, .watch t) ∧ ¬ Registered s t) then 1 else 0 := by
  have hkills : leaving c = none → ¬ Kills t s c := by
    intro hc
    simp [kills_iff, hc]
  cases c with
  | drain => simp [notices, hkills rfl, controlOf]
  | tearDown order conn => exact told_end h hbefore rfl rfl
  | event order event =>
    cases event with
    | newConnection conn hello => simp [notices, hkills rfl, controlOf]
    | disconnected conn => exact told_end h hbefore rfl rfl
    | frame conn service payload =>
      simp only [notices, controlOf, hkills rfl, and_false, false_or]
      by_cases hservice : service = 0
      · rw [if_pos hservice, if_pos hservice, told_control h.books]
        have hiff : (pc.controlFromBytes payload).map (fun msg => (conn, msg)) = some (w, .watch t) ↔
            pc.controlFromBytes payload = some (.watch t) ∧ conn = w := by
          rw [Option.map_eq_some_iff]
          constructor
          · rintro ⟨msg, hmsg, he⟩
            cases he
            exact ⟨hmsg, rfl⟩
          · rintro ⟨hmsg, rfl⟩
            exact ⟨_, hmsg, rfl⟩
        simp only [hiff, and_assoc]
        split <;> rfl
      · simp [hservice]

end Step

section Run

variable {known : List ConnectionId} {s : ServerState} {cs : List Call}

theorem addressed_execs (hpc : pc.ControlRoundTrip) (h : Addressed known s) (hcs : Legal known cs) :
    Addressed (opened known cs) (execs pc accepts cs s) := by
  induction cs generalizing known s with
  | nil => exact h
  | cons c cs ih => exact ih (addressed_exec accepts hpc h hcs.1) hcs.2

theorem watched_execs (hpc : pc.ControlRoundTrip) (h : Addressed known s) (hcs : Legal known cs)
    {w : ConnectionId} {t : Address} {before : Bool}
    (hbefore : before = true ↔ Watched (registry s) w t) :
    (history pc accepts s cs).foldl (stands pc w t) before = true ↔
      Watched (registry (execs pc accepts cs s)) w t := by
  induction cs generalizing known s before with
  | nil => exact hbefore
  | cons c cs ih =>
    exact ih (addressed_exec accepts hpc h hcs.1) hcs.2
      (watched_rewatches h hcs.1 (exec_rewatches accepts hpc h.books c) hbefore)

end Run

variable (pc) in
/-- The contract of the death watch: a call offers a connection the news of the
end of a pane once if it removes the pane and a watch is outstanding, or if it
is a watch on a pane that is not registered, and otherwise not at all. -/
theorem death_watch (hpc : pc.ControlRoundTrip) (inputs : List Input) (horderly : Orderly [] inputs)
    (w : ConnectionId) (t : Address) (past : List Call) (c : Call)
    (hpast : past ++ [c] <+: runCalls pc accepts Server.new inputs)
    (hw : w ∈ (execs pc accepts past Server.new).writers) :
    let s := execs pc accepts past Server.new
    exits pc (exec pc accepts s c) w t = exits pc s w t +
      if (outstanding pc w t (history pc accepts Server.new past) = true ∧ Kills t s c) ∨
        (controlOf pc c = some (w, .watch t) ∧ ¬ Registered s t) then 1 else 0 := by
  intro s
  obtain ⟨rest, hrest⟩ := hpast
  have hlegal := legal_runCalls pc accepts Server.new horderly
  rw [← hrest, List.append_assoc] at hlegal
  obtain ⟨hpast, -⟩ := (legal_append _ _ _).mp hlegal
  have haddressed := addressed_execs accepts hpc addressed_new hpast
  have hnone : false = true ↔ Watched (registry Server.new) w t := by
    refine ⟨nofun, ?_⟩
    rintro ⟨d, hd, -⟩
    cases hd
  have hwatched := watched_execs accepts hpc addressed_new hpast hnone
  rw [exits, heard_exec accepts w (exitOf t) hpc haddressed.sound.symmetric, if_pos hw,
    List.length_append, exits_told haddressed hwatched]
  rfl

def vigil : List Input :=
  [⟨.newConnection ⟨1⟩ ⟨[]⟩, .stored⟩, ⟨.newConnection ⟨2⟩ ⟨[]⟩, .stored⟩,
    ⟨.frame ⟨2⟩ 0 (controlMessage.encode (.watch (Address.local 1))), .stored⟩,
    ⟨.frame ⟨2⟩ 0 (controlMessage.encode (.watch (Address.local 1))), .stored⟩,
    ⟨.frame ⟨2⟩ 0 (controlMessage.encode (.watch (Address.local 2))), .stored⟩,
    ⟨.disconnected ⟨1⟩, .stored⟩, ⟨.disconnected ⟨2⟩, .stored⟩]

def wake : List Call := vigil.dropLast.dropLast.map (fun input => .event input.order input.event)

theorem death_watch_vigil :
    Orderly [] vigil ∧
    (wake ++ [.event .stored (.disconnected ⟨1⟩)] <+:
      runCalls postcard (fun _ => true) Server.new vigil) ∧
    exits postcard (exec postcard (fun _ => true) (execs postcard (fun _ => true) wake Server.new)
      (.event .stored (.disconnected ⟨1⟩))) ⟨2⟩ (Address.local 1) = 1 := by
  have horderly : Orderly [] vigil := by simp [vigil, Orderly]
  have hprefix : wake ++ [.event .stored (.disconnected ⟨1⟩)] <+:
      runCalls postcard (fun _ => true) Server.new vigil :=
    ⟨[.event .stored (.disconnected ⟨2⟩)], rfl⟩
  have hcontract := death_watch postcard (fun _ => true) postcard_control vigil horderly ⟨2⟩
    (Address.local 1) wake (.event .stored (.disconnected ⟨1⟩)) hprefix (by decide +kernel)
  exact ⟨horderly, hprefix, hcontract.trans (by decide +kernel)⟩

theorem books_execs (hpc : pc.ControlRoundTrip) (cs : List Call) {s : ServerState}
    (h : Books (registry s)) : Books (registry (execs pc accepts cs s)) := by
  induction cs generalizing s with
  | nil => exact h
  | cons c cs ih => exact ih (books_rewatches h (exec_rewatches accepts hpc h c))

variable (pc) in
/-- Between two events the tables of watches are inverse to each other, without empty
sets, and only registered connections are watched. So no removal of a connection, be it
an event or an overflow teardown, leaves its watchers in the reverse table. -/
theorem watch_tables_inverse (hpc : pc.ControlRoundTrip) (inputs : List Input) :
    let s := actorLoop pc accepts inputs
    (∀ t w, Listed s.watchTable t w ↔ Listed s.watcherReverse w t) ∧
      Tight s.watchTable ∧ Tight s.watcherReverse ∧
      (∀ t, t ∈ s.watchTable → t ∈ s.connAddresses) ∧
      ∀ p ∈ history pc accepts Server.new (runCalls pc accepts Server.new inputs),
        ∀ conn, leaving p.2 = some conn → Announces pc p.1 conn := by
  intro s
  have hbooks : Books (registry s) := by
    rw [show s = execs pc accepts (runCalls pc accepts Server.new inputs) Server.new from
      actorLoop_eq pc accepts inputs]
    exact books_execs accepts hpc _ books_new
  refine ⟨hbooks.mirrored, hbooks.tightWatched, hbooks.tightWatchers, hbooks.registered, ?_⟩
  intro p hp conn _
  obtain ⟨past, -, hpast⟩ := mem_history pc accepts hp
  rw [hpast]
  exact announces_of_books hpc (books_execs accepts hpc past books_new) conn

def straggler : List Input :=
  [⟨.newConnection ⟨1⟩ ⟨[]⟩, .stored⟩, ⟨.newConnection ⟨2⟩ ⟨[]⟩, .stored⟩,
    ⟨.frame ⟨1⟩ 0 (controlMessage.encode (.watch (Address.local 1))), .stored⟩,
    ⟨.frame ⟨2⟩ 0 (controlMessage.encode (.watch (Address.local 1))), .stored⟩,
    ⟨.disconnected ⟨1⟩, .stored⟩,
    ⟨.frame ⟨1⟩ 0 (controlMessage.encode (.watch (Address.local 2))), .stored⟩]

theorem watch_tables_inverse_straggler :
    let s := actorLoop postcard (fun _ => true) straggler
    (⟨1⟩ : ConnectionId) ∉ s.connAddresses ∧ Listed s.watchTable ⟨2⟩ ⟨1⟩ ∧
      Listed s.watcherReverse ⟨1⟩ ⟨2⟩ ∧ ∀ w, ¬ Listed s.watcherReverse w ⟨1⟩ := by
  intro s
  have htables := watch_tables_inverse postcard (fun _ => true) postcard_control straggler
  have hlisted : Listed s.watchTable ⟨2⟩ ⟨1⟩ := ⟨_, rfl, by decide +kernel⟩
  refine ⟨by decide +kernel, hlisted, (htables.1 ⟨2⟩ ⟨1⟩).mp hlisted, fun w hw => ?_⟩
  have hkey := mem_of_listed ((htables.1 ⟨1⟩ w).mpr hw)
  exact absurd hkey (by decide +kernel)

end Pane.DeathWatch
