import Pane.EventFilters
import Pane.LooperHistory
import Pane.PostcardFormat
import Pane.Setup

namespace Pane.BufferedMessages

open Pane.HashTable Pane.Messages Pane.Callbacks Pane.Unwinding Pane.LooperState
open Pane.CoreDispatch Pane.CoreRequest Pane.Looper Pane.CoreRuns Pane.ContextEffects
open Pane.LooperPlan Pane.LooperHistory Pane.EventFilters Pane.Setup Pane.PostcardFormat

variable {H : Type} (env : Env H) {core : LooperCore H}

def alone (elapsed : Nat → Bool) (msgs : List LooperMessage) : List Tick :=
  msgs.map fun msg => ⟨[.message msg], false, elapsed⟩

def revokedOnly (revoked : HashSet UInt16) : Batch := { Batch.new with revokedSessions := revoked }

def isInbound : ServiceFrame → Bool
  | .request .. => true
  | .notification _ => true
  | _ => false

def aloneActs (pc : Postcard) (revoked : HashSet UInt16) : LooperMessage → List Act
  | .control (.lifecycle msg) => [.op (.handle (.control (.lifecycle msg)))]
  | .control (.serviceTeardown sessionId reason) => [.op (.tearDown sessionId reason)]
  | .control (.paneExited address reason) => [.op (.handle (.control (.paneExited address reason)))]
  | .control (.interestAccepted _ sessionId _) => [.op (.connectSubscriber sessionId)]
  | .control _ => []
  | .localRevoke sessionId =>
    if sessionId ∈ revoked then []
    else (pc.controlToAllocvec (.revokeInterest sessionId)).toList.map fun bytes => .op (.write bytes)
  | .newConnection _ => []
  | .service sessionId payload =>
    match pc.frameFromBytes payload with
    | none => []
    | some frame =>
      if sessionId ∈ revoked ∧ isInbound frame then [] else [.op (.service false sessionId frame)]

def revokes (revoked : HashSet UInt16) : LooperMessage → HashSet UInt16
  | .localRevoke sessionId =>
    if sessionId ∈ revoked then revoked else revoked.insert sessionId ()
  | _ => revoked

theorem portion_singleton {α : Type} (revoked : HashSet UInt16) (elapsed : Nat → Bool)
    (session : α → UInt16) (dispatched : Nat) (a : α) :
    portion revoked elapsed session dispatched [a] =
      if session a ∈ revoked then ([], dispatched, []) else ([a], dispatched + 1, []) := by
  rw [portion, portion, portion]
  split
  · rfl
  · split <;> rfl

section Alone

variable (pc : Postcard) (revoked : HashSet UInt16) (elapsed : Nat → Bool)

theorem tickPlan_localRevoke (sessionId : UInt16) :
    tickPlan pc ⟨revokedOnly revoked, false⟩
        ⟨[.message (.localRevoke sessionId)], false, elapsed⟩ =
      (aloneActs pc revoked (.localRevoke sessionId),
        ⟨revokedOnly (revokes revoked (.localRevoke sessionId)), false⟩) := by
  rw [aloneActs, revokes]
  by_cases hs : sessionId ∈ revoked
  · simp only [tickPlan, List.foldl_cons, List.foldl_nil, collectInput, Batch.collect,
      Batch.collectRevoke, revokedOnly, hs, if_true]
    rfl
  · cases hbytes : pc.controlToAllocvec (.revokeInterest sessionId) with
    | none =>
      simp only [tickPlan, List.foldl_cons, List.foldl_nil, collectInput, Batch.collect,
        Batch.collectRevoke, revokedOnly, hs, hbytes]
      rfl
    | some bytes =>
      simp only [tickPlan, List.foldl_cons, List.foldl_nil, collectInput, Batch.collect,
        Batch.collectRevoke, revokedOnly, hs, hbytes]
      rfl

theorem tickPlan_service (sessionId : UInt16) (payload : Bytes) :
    tickPlan pc ⟨revokedOnly revoked, false⟩
        ⟨[.message (.service sessionId payload)], false, elapsed⟩ =
      (aloneActs pc revoked (.service sessionId payload), ⟨revokedOnly revoked, false⟩) := by
  rw [aloneActs]
  cases hframe : pc.frameFromBytes payload with
  | none =>
    simp only [tickPlan, List.foldl_cons, List.foldl_nil, collectInput, Batch.collect, hframe]
    rfl
  | some frame =>
    cases frame with
    | reply token bytes =>
      dsimp only
      rw [if_neg (by simp [isInbound])]
      simp only [tickPlan, List.foldl_cons, List.foldl_nil, collectInput, Batch.collect, hframe]
      rfl
    | failed token =>
      dsimp only
      rw [if_neg (by simp [isInbound])]
      simp only [tickPlan, List.foldl_cons, List.foldl_nil, collectInput, Batch.collect, hframe]
      rfl
    | request token inner =>
      have hplan : tickPlan pc ⟨revokedOnly revoked, false⟩
          ⟨[.message (.service sessionId payload)], false, elapsed⟩ =
          inboundPlan elapsed
            ⟨{ revokedOnly revoked with requests := [(sessionId, token, inner)] }, false⟩ := by
        simp only [tickPlan, List.foldl_cons, List.foldl_nil, collectInput, Batch.collect, hframe]
        rfl
      rw [hplan, inboundPlan]
      simp only [portion_singleton, isInbound]
      by_cases hs : sessionId ∈ revoked
      · simp only [revokedOnly, hs]
        rfl
      · simp only [revokedOnly, hs]
        rfl
    | notification inner =>
      have hplan : tickPlan pc ⟨revokedOnly revoked, false⟩
          ⟨[.message (.service sessionId payload)], false, elapsed⟩ =
          inboundPlan elapsed
            ⟨{ revokedOnly revoked with notifications := [(sessionId, inner)] }, false⟩ := by
        simp only [tickPlan, List.foldl_cons, List.foldl_nil, collectInput, Batch.collect, hframe]
        rfl
      rw [hplan, inboundPlan]
      simp only [portion_singleton, isInbound]
      by_cases hs : sessionId ∈ revoked
      · simp only [revokedOnly, hs]
        rfl
      · simp only [revokedOnly, hs]
        rfl

theorem tickPlan_alone {msg : LooperMessage} (hmsg : msg ≠ .newConnection true) :
    tickPlan pc ⟨revokedOnly revoked, false⟩ ⟨[.message msg], false, elapsed⟩ =
      (aloneActs pc revoked msg, ⟨revokedOnly (revokes revoked msg), false⟩) := by
  cases msg with
  | newConnection registers =>
    cases registers with
    | true => exact absurd rfl hmsg
    | false => rfl
  | localRevoke sessionId => exact tickPlan_localRevoke pc revoked elapsed sessionId
  | control msg => cases msg <;> rfl
  | service sessionId payload => exact tickPlan_service pc revoked elapsed sessionId payload

end Alone

def isSkipped : LooperMessage → Bool
  | .control (.serviceTeardown ..) => true
  | .control (.paneExited ..) => true
  | .control (.interestAccepted ..) => true
  | _ => false

def kept (msg : LooperMessage) : LooperMessage :=
  if isSkipped msg then .newConnection false else msg

def drainAct (msg : LooperMessage) : Act := .op (.handle (kept msg))

theorem drainMessage_eq (msg : LooperMessage) :
    drainMessage env msg = Op.exec env (.handle (kept msg)) := by
  cases msg with
  | control msg => cases msg <;> rfl
  | _ => rfl

theorem drainBuffered_eq (msgs : List LooperMessage) :
    drainBuffered env msgs = execAll env (msgs.map drainAct) := by
  have hdrain : drainMessage env = fun msg => Op.exec env (.handle (kept msg)) :=
    funext (drainMessage_eq env)
  rw [drainBuffered, hdrain, untilExit_eq env fun msg => .handle (kept msg)]
  rfl

def Undisputed (pc : Postcard) (revoked : HashSet UInt16) : LooperMessage → Prop
  | .localRevoke sessionId => sessionId ∉ revoked
  | .newConnection registers => registers = false
  | .service sessionId payload => sessionId ∈ revoked →
    ∀ frame, pc.frameFromBytes payload = some frame → isInbound frame = false
  | msg => isSkipped msg = false

theorem exec_localRevoke (sessionId : UInt16) :
    (drainAct (.localRevoke sessionId)).exec env = (do
      match ← (do sendControl env (.revokeInterest sessionId); return DispatchOutcome.cont) with
      | .exit reason => return some reason
      | .cont => return none) := rfl

theorem execAll_alone {revoked : HashSet UInt16} {msg : LooperMessage}
    (h : Undisputed env.pc revoked msg) :
    execAll env (aloneActs env.pc revoked msg) = (drainAct msg).exec env := by
  cases msg with
  | newConnection registers => rfl
  | control msg =>
    cases msg with
    | lifecycle msg => exact Code.firstOf_singleton _ _
    | serviceTeardown sessionId reason => exact absurd h (by simp [Undisputed, isSkipped])
    | paneExited address reason => exact absurd h (by simp [Undisputed, isSkipped])
    | interestAccepted service sessionId version => exact absurd h (by simp [Undisputed, isSkipped])
    | _ => rfl
  | localRevoke sessionId =>
    rw [aloneActs, if_neg h, exec_localRevoke, sendControl]
    cases env.pc.controlToAllocvec (.revokeInterest sessionId) with
    | none => rfl
    | some bytes =>
      refine (Code.firstOf_singleton _ _).trans ((exec_write env bytes).trans ?_)
      funext core
      dsimp only
      rw [Code.bind_apply, Code.bind_apply, Code.bind_apply, Code.bind_apply]
      cases trySend env 0 bytes core with
      | mk o core' =>
        cases o with
        | done answer => rfl
        | panicked => rfl
  | service sessionId payload =>
    have hexec : (drainAct (.service sessionId payload)).exec env =
        Act.exec env (.op (.handle (.service sessionId payload))) := rfl
    rw [aloneActs, hexec, exec_handle_service]
    cases hframe : env.pc.frameFromBytes payload with
    | none => rfl
    | some frame =>
      dsimp only
      rw [if_neg (fun hs => by simp [h hs.1 frame hframe] at hs), execAll, Code.firstOf_singleton]

def isRead : LooperMessage → Bool
  | .control _ => true
  | .service .. => true
  | _ => false

theorem revokes_read {msg : LooperMessage} (h : isRead msg) (revoked : HashSet UInt16) :
    revokes revoked msg = revoked := by
  cases msg with
  | localRevoke sessionId => exact absurd h Bool.false_ne_true
  | _ => rfl

theorem undisputed_read {pc : Postcard} {msg : LooperMessage} (h : isRead msg)
    (hmsg : isSkipped msg = false) : Undisputed pc ∅ msg := by
  cases msg with
  | control msg => cases msg <;> exact hmsg
  | service sessionId payload =>
    intro hs
    exact absurd hs (by simp)
  | localRevoke sessionId => exact absurd h Bool.false_ne_true
  | newConnection registers => exact absurd h Bool.false_ne_true

def Agrees (revoked : HashSet UInt16) : List LooperMessage → LooperCore H → Prop
  | [], _ => True
  | msg :: msgs, core => Undisputed env.pc revoked msg ∧
    ∀ core', (drainAct msg).exec env core = (.done none, core') →
      Agrees (revokes revoked msg) msgs core'

theorem agrees_read {msgs : List LooperMessage}
    (h : ∀ msg ∈ msgs, isRead msg ∧ isSkipped msg = false) : Agrees env ∅ msgs core := by
  induction msgs generalizing core with
  | nil => trivial
  | cons msg msgs ih =>
    obtain ⟨hread, hkept⟩ := h msg List.mem_cons_self
    refine ⟨undisputed_read hread hkept, fun core' _ => ?_⟩
    rw [revokes_read hread]
    exact ih fun m hm => h m (List.mem_cons_of_mem _ hm)

theorem not_newConnection {pc : Postcard} {revoked : HashSet UInt16} {msg : LooperMessage}
    (h : Undisputed pc revoked msg) : msg ≠ .newConnection true := by
  rintro rfl
  exact Bool.noConfusion h

theorem mainLoop_alone (revoked : HashSet UInt16) (elapsed : Nat → Bool) {msg : LooperMessage}
    (hmsg : msg ≠ .newConnection true) (msgs : List LooperMessage) :
    mainLoop env ⟨revokedOnly revoked, false⟩ (alone elapsed (msg :: msgs)) =
      Code.orNext (execAll env (aloneActs env.pc revoked msg))
        (mainLoop env ⟨revokedOnly (revokes revoked msg), false⟩ (alone elapsed msgs)) := by
  have halone : alone elapsed (msg :: msgs) =
      ⟨[.message msg], false, elapsed⟩ :: alone elapsed msgs := rfl
  rw [mainLoop_plan, halone, runPlan, tickPlan_alone env.pc revoked elapsed hmsg, execAll_append,
    ← mainLoop_plan]

theorem drained_like_batches {revoked : HashSet UInt16} (elapsed : Nat → Bool)
    {msgs : List LooperMessage} (h : Agrees env revoked msgs core) :
    drainBuffered env msgs core =
      mainLoop env ⟨revokedOnly revoked, false⟩ (alone elapsed msgs) core := by
  rw [drainBuffered_eq]
  induction msgs generalizing revoked core with
  | nil => rfl
  | cons msg msgs ih =>
    obtain ⟨hmsg, hrest⟩ := h
    rw [mainLoop_alone env revoked elapsed (not_newConnection hmsg), execAll_alone env hmsg,
      List.map_cons, execAll, Code.firstOf_cons, ← execAll, Code.orNext, Code.orNext]
    cases hexec : (drainAct msg).exec env core with
    | mk o core' =>
      cases o with
      | panicked => rfl
      | done exit =>
        cases exit with
        | some reason => rfl
        | none => exact ih (hrest core' hexec)

section Differences

def isSpecial : Call → Bool
  | .paneExited .. => true
  | .subscriberConnected _ => true
  | .subscriberDisconnected .. => true
  | _ => false

def calledOf : Event → Option Call
  | .called call => some call
  | _ => none

def callbacks (core : LooperCore H) : List Call := core.trace.filterMap calledOf

def specials (core : LooperCore H) : Nat := (callbacks core).countP isSpecial

def Unspecial (e : Event) : Prop := ∀ call, e = .called call → isSpecial call = false

theorem admits_unspecial : Admits Unspecial fun _ => True where
  work e he call hcall := by simp [hcall, isWork] at he
  panicked _ _ _ h := Event.noConfusion h
  onFailed _ _ h := by
    cases h
    rfl
  notes _ _ := trivial

theorem specials_of_shows {core' : LooperCore H} (h : Shows Unspecial core core') :
    specials core' = specials core := by
  obtain ⟨es, htrace, hes⟩ := h.trace
  rw [specials, specials, callbacks, callbacks, htrace, List.filterMap_append, List.countP_append,
    Nat.add_eq_left, List.countP_eq_zero]
  intro call hcall
  obtain ⟨e, he, heq⟩ := List.mem_filterMap.mp hcall
  cases e with
  | called c =>
    cases heq
    simp [hes _ he call rfl]
  | _ => cases heq

theorem specials_of_grown {core' : LooperCore H} (h : Grown core core') :
    specials core ≤ specials core' :=
  (h.filterMap calledOf).sublist.countP_le

theorem unspecial_kept (pc : Postcard) (msg : LooperMessage) :
    ∀ e ∈ ofMessage pc (kept msg), Unspecial e := by
  intro e he call hcall
  subst hcall
  cases msg with
  | newConnection registers => exact absurd he List.not_mem_nil
  | localRevoke sessionId => exact absurd he List.not_mem_nil
  | control msg =>
    cases msg with
    | lifecycle msg =>
      cases List.mem_singleton.mp he
      rfl
    | _ => exact absurd he List.not_mem_nil
  | service sessionId payload =>
    have hmem : .called call ∈ ((pc.frameFromBytes payload).map (ofFrame sessionId)).getD [] := he
    cases hframe : pc.frameFromBytes payload with
    | none =>
      rw [hframe] at hmem
      exact absurd hmem List.not_mem_nil
    | some frame =>
      rw [hframe] at hmem
      cases frame <;> simp [ofFrame] at hmem <;> subst hmem <;> rfl

theorem specials_drained (msgs : List LooperMessage) (core : LooperCore H) :
    specials (drainBuffered env msgs core).2 = specials core := by
  rw [drainBuffered_eq, execAll, Code.firstOf_map]
  have hmoves : Moves (Shows Unspecial) (Shows Unspecial)
      (Code.firstOf (fun msg => (drainAct msg).exec env) msgs) :=
    Moves.firstOf (fun msg =>
      only_act env admits_unspecial (drainAct msg) (unspecial_kept env.pc msg)
        fun _ _ _ => trivial) msgs
  exact specials_of_shows (hmoves.always core)

theorem specials_dispatch {call : Call} (hcall : isSpecial call) (callback : H → Callback H)
    (hexited : core.exited = false) :
    Ends (dispatch env call callback) core fun _ core' => specials core < specials core' := by
  have hlog : specials (core.log (.called call)) = specials core + 1 := by
    have htrace : (core.log (.called call)).trace = core.trace ++ [.called call] := rfl
    rw [specials, callbacks, htrace, List.filterMap_append, List.countP_append]
    simp [specials, callbacks, calledOf, hcall]
  apply (grown_dispatch env callback hexited).mono
  intro _ core' hgrown
  have hle := specials_of_grown hgrown
  omega

def Recorded {α : Type} (core : LooperCore H) (o : Outcome α) (core' : LooperCore H) : Prop :=
  o = .panicked ∨ specials core < specials core'

theorem Recorded.lt {α : Type} {a : α} {core' : LooperCore H}
    (h : Recorded core (.done a) core') : specials core < specials core' := by
  obtain heq | hlt := h
  · cases heq
  · exact hlt

theorem recorded_skipped (op : Op) (h : Running core)
    (hop : match op with
      | .tearDown .. => true
      | .handle (.control (.paneExited ..)) => true
      | .connectSubscriber _ => true
      | _ => false) : Ends (Act.exec env (.op op)) core (Recorded core) := by
  have hexec : Ends (op.exec env) core (Recorded core) := by
    split at hop
    · rename_i sessionId reason
      refine Ends.seq ((running_dispatchTeardown env sessionId h).and
        (grown_of_moves (only_cascade env admits_all _) core)) ?_ fun _ _ => .inl rfl
      rintro _ core' ⟨hrunning, hgrown⟩
      have hle := specials_of_grown hgrown
      apply (specials_dispatch env rfl _ hrunning.exited).mono
      exact fun _ _ hlt => .inr (by omega)
    · exact (specials_dispatch env rfl _ h.exited).mono fun _ _ hlt => .inr hlt
    · refine Ends.seq (works_lockEnqueues _ core) ?_ fun _ _ => .inl rfl
      intro _ core₁ hworks
      have hle := specials_of_grown (grown_of_works hworks)
      refine Ends.seq (specials_dispatch env rfl _ (h.works hworks).exited) ?_ fun _ _ => .inl rfl
      intro outcome core₂ hlt
      refine Ends.seq (works_lockEnqueues _ core₂) ?_ fun _ _ => .inl rfl
      intro _ core₃ hworks'
      have hle' := specials_of_grown (grown_of_works hworks')
      have hlt' : specials core < specials core₃ := by omega
      exact Ends.pure (.inr hlt')
    · exact absurd hop Bool.false_ne_true
  refine Ends.seq hexec ?_ fun _ _ => .inl rfl
  intro outcome core' hrecorded
  cases outcome with
  | cont => exact .inr hrecorded.lt
  | exit reason => exact .inr hrecorded.lt

theorem recorded_alone (revoked : HashSet UInt16) {msg : LooperMessage} (hmsg : isSkipped msg)
    (h : Running core) :
    Ends (execAll env (aloneActs env.pc revoked msg)) core (Recorded core) := by
  cases msg with
  | newConnection registers => exact absurd hmsg Bool.false_ne_true
  | localRevoke sessionId => exact absurd hmsg Bool.false_ne_true
  | service sessionId payload => exact absurd hmsg Bool.false_ne_true
  | control msg =>
    cases msg with
    | serviceTeardown sessionId reason =>
      rw [aloneActs, execAll, Code.firstOf_singleton]
      exact recorded_skipped env _ h rfl
    | paneExited address reason =>
      rw [aloneActs, execAll, Code.firstOf_singleton]
      exact recorded_skipped env _ h rfl
    | interestAccepted service sessionId version =>
      rw [aloneActs, execAll, Code.firstOf_singleton]
      exact recorded_skipped env _ h rfl
    | _ => exact absurd hmsg Bool.false_ne_true

theorem specials_of_not_agrees (elapsed : Nat → Bool) {msgs : List LooperMessage}
    (hread : ∀ msg ∈ msgs, isRead msg) (h : Running core) (hnot : ¬ Agrees env ∅ msgs core)
    (hpanic : (mainLoop env ⟨Batch.new, false⟩ (alone elapsed msgs) core).1 ≠ .panicked) :
    specials (drainBuffered env msgs core).2 <
      specials (mainLoop env ⟨Batch.new, false⟩ (alone elapsed msgs) core).2 := by
  induction msgs generalizing core with
  | nil => exact absurd trivial hnot
  | cons msg msgs ih =>
    have hmsg : isRead msg := hread msg List.mem_cons_self
    have hloop : mainLoop env ⟨Batch.new, false⟩ (alone elapsed (msg :: msgs)) =
        Code.orNext (execAll env (aloneActs env.pc ∅ msg))
          (mainLoop env ⟨Batch.new, false⟩ (alone elapsed msgs)) := by
      have hne : msg ≠ .newConnection true := by
        rintro rfl
        exact absurd hmsg Bool.false_ne_true
      have hmain := mainLoop_alone env ∅ elapsed hne msgs
      rwa [revokes_read hmsg] at hmain
    rw [hloop, Code.orNext] at hpanic ⊢
    by_cases hskip : isSkipped msg
    · -- The callback is on record in the one run, and the other makes none like it.
      rw [specials_drained]
      have hrecorded := recorded_alone env ∅ hskip h
      unfold Ends at hrecorded
      cases hexec : execAll env (aloneActs env.pc ∅ msg) core with
      | mk o core' =>
        rw [hexec] at hrecorded hpanic
        cases o with
        | panicked => exact absurd rfl hpanic
        | done exit =>
          have hlt : specials core < specials core' := Recorded.lt hrecorded
          cases exit with
          | some reason => exact hlt
          | none =>
            dsimp only
            rw [mainLoop_plan]
            have hgrown := related_of_visited env (grown_act env)
              (runPlan env.pc ⟨Batch.new, false⟩ (alone elapsed msgs)) core'
            exact Nat.lt_of_lt_of_le hlt (specials_of_grown hgrown.1)
    · have hund : Undisputed env.pc ∅ msg := undisputed_read hmsg (by simpa using hskip)
      rw [execAll_alone env hund] at hpanic ⊢
      rw [drainBuffered_eq, List.map_cons, execAll, Code.firstOf_cons, ← execAll,
        ← drainBuffered_eq, Code.orNext]
      have hnext := leaves_act env (rules_running env) (drainAct msg) h
      unfold Ends at hnext
      have hagrees (hexec : ∀ core', (drainAct msg).exec env core ≠ (.done none, core')) :
          Agrees env ∅ (msg :: msgs) core := ⟨hund, fun core' h => absurd h (hexec core')⟩
      cases hexec : (drainAct msg).exec env core with
      | mk o core' =>
        rw [hexec] at hnext hpanic
        cases o with
        | panicked => exact absurd rfl hpanic
        | done exit =>
          cases exit with
          | some reason => exact absurd (hagrees fun _ h => by simp [hexec] at h) hnot
          | none =>
            refine ih (fun m hm => hread m (List.mem_cons_of_mem _ hm)) hnext (fun hrest => ?_) hpanic
            refine hnot ⟨hund, fun core'' h => ?_⟩
            rw [revokes_read hmsg]
            cases hexec.symm.trans h
            exact hrest

end Differences

/-- `run_with` makes the callbacks that the loop would make for the same messages, one
in each batch, as long as no message is reached that only the loop dispatches. For
what a reader thread delivers there is no other way to get the same callbacks. -/
theorem setup_callbacks_iff (elapsed : Nat → Bool) (msgs : List LooperMessage)
    (h : Running core) :
    (Agrees env ∅ msgs core → drainBuffered env msgs core =
      mainLoop env ⟨Batch.new, false⟩ (alone elapsed msgs) core) ∧
    ((∀ msg ∈ msgs, isRead msg) →
      (mainLoop env ⟨Batch.new, false⟩ (alone elapsed msgs) core).1 ≠ .panicked →
      (callbacks (drainBuffered env msgs core).2 =
        callbacks (mainLoop env ⟨Batch.new, false⟩ (alone elapsed msgs) core).2 ↔
        Agrees env ∅ msgs core)) := by
  have hsame : Agrees env ∅ msgs core → drainBuffered env msgs core =
      mainLoop env ⟨Batch.new, false⟩ (alone elapsed msgs) core :=
    drained_like_batches env elapsed
  refine ⟨hsame, fun hread hpanic => ⟨fun heq => ?_, fun hagrees => by rw [hsame hagrees]⟩⟩
  by_contra hnot
  have hlt := specials_of_not_agrees env elapsed hread h hnot hpanic
  rw [specials, specials, heq] at hlt
  exact Nat.lt_irrefl _ hlt

namespace Names

def service : ServiceId := ⟨Uuid.replicate 7, "names"⟩

def protocol : Protocol Unit := ⟨service, fun _ => some fun h => .ret h .cont, fun _ => none⟩

def builder (waiting : List LooperMessage) : Outcome (Option ServiceHandle) × PaneBuilder Unit :=
  (do
    let _ ← connect (some (waiting ++ [LooperMessage.control (.interestAccepted service.uuid 3 1)]))
    openService true protocol) PaneBuilder.new

def surroundings (waiting : List LooperMessage) : Env Unit :=
  { Env.idle postcard with serviceDispatch := (builder waiting).2.serviceDispatch }

def drained (waiting : List LooperMessage) : LooperCore Unit :=
  (drainBuffered (surroundings waiting) waiting (LooperCore.new () ⟨1⟩)).2

def batched (waiting : List LooperMessage) : LooperCore Unit :=
  (mainLoop (surroundings waiting) ⟨Batch.new, false⟩ (alone (fun _ => false) waiting)
    (LooperCore.new () ⟨1⟩)).2

def published : List LooperMessage :=
  [.control (.lifecycle .ready), .service 3 ((postcard.frameToAllocvec (.notification [0, 5])).getD [])]

def skipped : List LooperMessage :=
  [.control (.paneExited ⟨1, 0⟩ .graceful), .control (.serviceTeardown 9 .serviceRevoked),
    .control (.interestAccepted ⟨List.replicate 16 8, rfl⟩ 8 1)]

end Names

theorem setup_callbacks_published :
    (Names.builder Names.published).2.bufferedMessages = Names.published ∧
      callbacks (Names.drained Names.published) = [.lifecycle .ready, .receive 3 [0, 5]] ∧
      Names.drained Names.published = Names.batched Names.published := by
  have hread : ∀ msg ∈ Names.published, isRead msg ∧ isSkipped msg = false := by decide
  have hsame := (setup_callbacks_iff (Names.surroundings Names.published) (fun _ => false)
    Names.published (running_new () ⟨1⟩)).1 (agrees_read _ hread)
  exact ⟨rfl, by decide +kernel, congrArg Prod.snd hsame⟩

theorem setup_callbacks_skipped :
    (Names.builder Names.skipped).1 = .done (some ⟨3, Names.protocol.tag⟩) ∧
      (Names.builder Names.skipped).2.bufferedMessages = Names.skipped ∧
      callbacks (Names.drained Names.skipped) = [] ∧
      callbacks (Names.batched Names.skipped) = [.paneExited ⟨1, 0⟩ .graceful,
        .subscriberDisconnected 9 .serviceRevoked, .subscriberConnected 8] :=
  ⟨rfl, rfl, by decide +kernel, by decide +kernel⟩

end Pane.BufferedMessages
