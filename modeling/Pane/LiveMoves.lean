import Pane.CoreMoves
import Pane.LooperPlan
import Pane.LooperSafety

namespace Pane.LiveMoves

open Pane.HashTable Pane.Messages Pane.Correlator Pane.Callbacks Pane.Unwinding Pane.LooperState
open Pane.CallbackEffects Pane.CoreDispatch Pane.CoreRequest Pane.Looper Pane.CoreRuns
open Pane.RequestLedger Pane.Cascades Pane.LiveCore Pane.RequestSafety Pane.CoreMoves
open Pane.LooperPlan

variable {H : Type} {env : Env H} {core core' : LooperCore H} {call : Call} {t : Token}

theorem mem_tokenSessions (t : Token) :
    t ∈ core.activeSession.correlator.tokenSessions ↔ (sessionOf core t).isSome := by
  rw [sessionOf, RequestCorrelator.sessionOf, AList.lookup_isSome]

theorem mem_of_pending (h : Books none core) (ht : Pending core t ∨ PendingAsync core t) :
    t ∈ core.activeSession.correlator.tokenSessions := by
  rw [mem_tokenSessions, h.agree]
  exact ht.elim .inl fun ha => .inr (.inl ha)

def SameSession (core core' : LooperCore H) : Prop := core'.activeSession = core.activeSession

instance : Std.Refl (SameSession (H := H)) := ⟨fun _ => rfl⟩

instance : Trans (SameSession (H := H)) SameSession SameSession := ⟨fun h h' => h'.trans h⟩

theorem same_fire {code : DispatchEntry H → H → Callback H} {event : Event} :
    Moves SameSession SameSession (fire env t call code event) := by
  apply moves_fire (fun _ _ => rfl) (fun _ _ => rfl)
  · refine fun code => (moves_invoke env call code).mono (fun _ _ h => h.stays.activeSession) ?_
    rintro core _ ⟨core₁, hquiet, rfl⟩
    exact hquiet.stays.activeSession
  · intro entry
    unfold settle
    split
    · exact Moves.bind (Moves.modify fun _ => rfl) fun _ => Moves.unwind
    · exact Moves.modify fun _ => rfl

theorem same_failTokens (tokens : List Token) :
    Moves SameSession SameSession (failTokens env tokens) :=
  Moves.forEach (fun _ => Moves.bind same_fire fun _ => Moves.pure _) tokens

theorem pending_of_fire {code : DispatchEntry H → H → Callback H} {event : Event}
    (core : LooperCore H) :
    Ends (fire env t call code event) core fun o _ =>
      ∀ flow, o = .done (some flow) → Pending core t ∨ PendingAsync core t := by
  cases he : core.dispatch.entries.lookup (core.primaryConnection, t) with
  | some entry => exact fun _ _ => .inl (mem_of_lookup he)
  | none =>
    cases ha : core.dispatch.asyncEntries.lookup (core.primaryConnection, t) with
    | some entry => exact fun _ _ => .inr (mem_of_lookup ha)
    | none =>
      unfold Ends
      rw [fire_none env he ha]
      simp

theorem mem_of_fire {code : DispatchEntry H → H → Callback H} {event : Event}
    (h : Books none core) :
    Ends (fire env t call code event) core fun o core' =>
      ∀ flow, o = .done (some flow) → t ∈ core'.activeSession.correlator.tokenSessions := by
  apply ((same_fire.always core).and (pending_of_fire core)).mono
  rintro o core' ⟨hsession, hpending⟩ flow ho
  rw [hsession]
  exact mem_of_pending h (hpending flow ho)

/-- The requests stay as they are, and so does what was said of an exit. -/
structure Aside (core core' : LooperCore H) : Prop where
  dispatch : core'.dispatch = core.dispatch
  activeSession : core'.activeSession = core.activeSession
  exitTx : core'.exitTx = core.exitTx
  trace : ∃ es, core'.trace = core.trace ++ es ∧ ∀ e ∈ es, ∀ t s, e ≠ .installed t s

theorem Aside.silent (hdispatch : core'.dispatch = core.dispatch)
    (hsession : core'.activeSession = core.activeSession) (hexitTx : core'.exitTx = core.exitTx)
    (htrace : core'.trace = core.trace) : Aside core core' :=
  ⟨hdispatch, hsession, hexitTx, [], by simpa using htrace, by simp⟩

theorem Aside.event {e : Event} (he : ∀ t s, e ≠ .installed t s) (core : LooperCore H) :
    Aside core (core.log e) :=
  ⟨rfl, rfl, rfl, [e], rfl, by simpa using he⟩

theorem Aside.note (n : Note) (core : LooperCore H) : Aside core (core.note n) :=
  .silent rfl rfl rfl rfl

theorem aside_of_quiet (h : Quiet call core core') : Aside core core' := by
  obtain ⟨hstays, es, htrace, hminor, -⟩ := h
  refine ⟨hstays.dispatch, hstays.activeSession, hstays.exitTx, es, htrace, ?_⟩
  rintro e he t s rfl
  exact Bool.false_ne_true (hminor _ he)

theorem aside_of_still (h : Still core core') : Aside core core' :=
  aside_of_quiet (h.quiet : Quiet .disconnected core core')

/-- A property of cores that outlasts what happens to the requests. Only tokens that are
in the table are taken out of it, and where `room` fails no callback entry is made. -/
structure Upkeep (room W : LooperCore H → Prop) : Prop where
  aside : ∀ {core core'}, Aside core core' → W core → W core'
  spend : ∀ {core} key, W core → W (removeEntry key core)
  spendAsync : ∀ {core} key, W core → W (removeAsync key core)
  resolve : ∀ core t, t ∈ core.activeSession.correlator.tokenSessions → W core →
    W { core with activeSession := core.activeSession.recordResolution t }
  spare : ∀ {core}, core.activeSession.wouldExceedCap = false → room core
  insert : ∀ {core} sessionId entry, Live core → room core → W core →
    W (inserted sessionId entry core)
  insertAsync : ∀ {core} sessionId futureDropped, Live core → W core →
    W (insertedAsync sessionId futureDropped core)

def Saves (W : LooperCore H → Prop) (core core' : LooperCore H) : Prop := W core → W core'

def Admits (W : LooperCore H → Prop) (core core' : LooperCore H) : Prop :=
  Live core ∧ W core → Live core' ∧ W core'

def Bears (W : LooperCore H → Prop) (core core' : LooperCore H) : Prop :=
  Live core ∧ W core → W core'

section Relations

variable {W : LooperCore H → Prop}

instance : Std.Refl (Saves W) := ⟨fun _ h => h⟩

instance : Trans (Saves W) (Saves W) (Saves W) := ⟨fun h h' hcore => h' (h hcore)⟩

instance : Std.Refl (Bears W) := ⟨fun _ h => h.2⟩

instance : Trans (Admits W) (Admits W) (Admits W) := ⟨fun h h' hcore => h' (h hcore)⟩

instance : Trans (Admits W) (Bears W) (Bears W) := ⟨fun h h' hcore => h' (h hcore)⟩

theorem Moves.saved {α : Type} {m : Loop H α} (h : Moves (Saves W) (Saves W) m) (hcore : W core) :
    Ends m core fun _ core' => W core' :=
  (h.always core).mono fun _ _ hsaves => hsaves hcore

end Relations

section Upkeep

variable {room W : LooperCore H → Prop} (hW : Upkeep room W)

include hW

theorem saves_log {e : Event} (he : ∀ t s, e ≠ .installed t s) :
    Moves (Saves W) (Saves W) (log e) :=
  Moves.modify fun core => hW.aside (.event he core)

theorem saves_of_still {α : Type} {m : Loop H α} (h : Moves Still (Quiet call) m) :
    Moves (Saves W) (Saves W) m :=
  h.mono (fun _ _ hstill => hW.aside (aside_of_still hstill))
    fun _ _ hquiet => hW.aside (aside_of_quiet hquiet)

theorem saves_trySend (service : UInt16) (payload : Bytes) :
    Moves (Saves W) (Saves W) (trySend env service payload) :=
  saves_of_still hW (still_trySend env service payload : Moves Still (Quiet .disconnected) _)

theorem saves_sendControl (msg : ControlMessage) :
    Moves (Saves W) (Saves W) (sendControl env msg) :=
  saves_of_still hW (still_sendControl env msg : Moves Still (Quiet .disconnected) _)

theorem saves_invoke (call : Call) (code : H → Callback H) :
    Moves (Saves W) (Saves W) (invoke env call code) := by
  have hcalled (core : LooperCore H) : Saves W core (core.log (.called call)) :=
    hW.aside (.event (by simp) core)
  refine (moves_invoke env call code).mono (fun core core' h hcore => ?_) ?_
  · exact hW.aside (aside_of_still h) (hcalled core hcore)
  · rintro core _ ⟨core₁, hquiet, rfl⟩ hcore
    exact hW.aside (.event (by simp) core₁) (hW.aside (aside_of_quiet hquiet) (hcalled core hcore))

theorem saves_fire {code : DispatchEntry H → H → Callback H} {event : Event}
    (hevent : ∀ t s, event ≠ .installed t s) :
    Moves (Saves W) (Saves W) (fire env t call code event) := by
  apply moves_fire (fun key _ => hW.spend key) (fun key _ => hW.spendAsync key)
    (saves_invoke hW call)
  intro entry
  unfold settle
  split
  · exact Moves.bind (saves_log hW (by simp)) fun _ => Moves.unwind
  · exact saves_log hW hevent

theorem saves_failTokens (tokens : List Token) :
    Moves (Saves W) (Saves W) (failTokens env tokens) :=
  Moves.forEach (fun _ => Moves.bind (saves_fire hW (by simp)) fun _ => Moves.pure _) tokens

theorem saves_cascade
    {failure : TokenOrder → ActiveSession → List (PeerScope × Token) × ActiveSession}
    (hfailure : ∀ order core, Saves W core
      { core with activeSession := (failure order core.activeSession).2 }) :
    Moves (Saves W) (Saves W) (cascade env failure) := by
  apply Moves.of_always
  intro core
  let teardown := failure (env.order core.trace.length) core.activeSession
  let core₁ : LooperCore H :=
    { core.note (.cascading (teardown.1.map Prod.snd)) with
      activeSession := teardown.2
      cascaded := core.cascaded ++ LooperCore.doomed core teardown.1 }
  have haside : Aside { core with activeSession := teardown.2 } core₁ := .silent rfl rfl rfl rfl
  have hstart : Saves W core core₁ := fun hcore =>
    hW.aside haside (hfailure (env.order core.trace.length) core hcore)
  exact ((saves_failTokens hW (teardown.1.map Prod.snd)).always core₁).mono
    fun _ _ h hcore => h (hstart hcore)

theorem saves_dispatchTeardown (sessionId : UInt16) :
    Moves (Saves W) (Saves W) (dispatchTeardown env sessionId) := by
  apply saves_cascade hW
  intro order core hcore
  refine core.activeSession.cascadeSessionFailure_induction order sessionId
    (P := fun a => W { core with activeSession := a }) (fun a t ht ha => ?_) hcore
  exact hW.resolve { core with activeSession := a } t ht ha

theorem saves_sendRequestFrame (direct : Bool) (sessionId : UInt16) (token : Token)
    (payload : Bytes) :
    Moves (Saves W) (Saves W) (sendRequestFrame env direct sessionId token payload) :=
  moves_sendRequestFrame (fun _ _ => hW.aside (.silent rfl rfl rfl rfl))
    (fun _ => saves_log hW (by simp)) (saves_trySend hW sessionId) (saves_log hW (by simp))

theorem Upkeep.rolledBack (hfresh : Fresh t core) (hcore : W core) : W (rolledBack t core) := by
  have hmem := mem_of_pending hfresh.live.books (.inl hfresh.pending)
  have hspent := hW.spend (core.primaryConnection, t) hcore
  exact hW.resolve ((removeEntry _ core).log (.cancelled t)) t hmem
    (hW.aside (.event (by simp) _) hspent)

theorem saved_sendRequestFrame (direct : Bool) (sessionId : UInt16) (payload : Bytes)
    (hfresh : Fresh t core) (hcore : W core) :
    Ends (sendRequestFrame env direct sessionId t payload) core fun o core' =>
      W core' ∧ ∀ reason, o = .done (.error reason) → Fresh t core' ∧ W (rolledBack t core') := by
  have hsaved : Ends (sendRequestFrame env direct sessionId t payload) core
      fun _ core' => W core' :=
    Moves.saved (saves_sendRequestFrame hW direct sessionId t payload) hcore
  apply ((fresh_sendRequestFrame env direct sessionId payload hfresh).and hsaved).mono
  rintro o core' ⟨ho, hcore'⟩
  refine ⟨hcore', ?_⟩
  rintro reason rfl
  exact ⟨ho, hW.rolledBack ho hcore'⟩

theorem saved_installAndSend (hlive : Live core) (hcore : W core) (hroom : room core)
    (direct : Bool) (handle : ServiceHandle) (msg : Option Bytes) (entry : DispatchEntry H) :
    Ends (installAndSend env direct handle msg entry) core fun _ core' => W core' := by
  have hinserted := hW.insert handle.sessionId entry hlive hroom hcore
  refine Ends.bind (Ends.congr (Ends.pure ?_) (insert_apply handle.sessionId entry core))
  cases msg with
  | none => exact hinserted
  | some msg =>
    refine Ends.seq (saved_sendRequestFrame hW direct handle.sessionId (handle.tag :: msg)
      (fresh_inserted handle.sessionId entry hlive) hinserted) ?_ fun _ h => h.1
    intro answer core₁ h
    cases answer with
    | ok u => exact h.1
    | error reason =>
      obtain ⟨hfresh, hrolled⟩ := h.2 reason rfl
      exact Ends.bind (Ends.congr (Ends.pure hrolled) (ctxCancel_fresh hfresh))

theorem saved_processSyncRequest (hlive : Live core) (hcore : W core) (hroom : room core)
    (req : SyncRequest) : Ends (processSyncRequest env req) core fun _ core' => W core' := by
  have hinserted := hW.insert req.sessionId SyncRequest.entry hlive hroom hcore
  refine Ends.bind (Ends.congr (Ends.pure ?_) (insert_apply req.sessionId _ core))
  refine Ends.seq (saved_sendRequestFrame hW false req.sessionId req.wirePayload
    (fresh_inserted req.sessionId _ hlive) hinserted) ?_ fun _ h => h.1
  intro answer core₁ h
  cases answer with
  | ok u => exact h.1
  | error reason =>
    obtain ⟨hfresh, hrolled⟩ := h.2 reason rfl
    exact Ends.bind (Ends.congr (Ends.pure hrolled) (cancel_fresh hfresh))

theorem saved_performCtx (direct : Bool) (effect : CtxEffect H) (hlive : Live core)
    (hcore : W core) : Ends (performCtx env direct call effect) core fun _ core' => W core' := by
  cases effect with
  | plain effect => exact Moves.saved (saves_of_still hW (still_perform env effect)) hcore
  | insertAsync sessionId futureDropped => exact hW.insertAsync sessionId futureDropped hlive hcore
  | sendRequest handle msg entry =>
    refine Ends.bind (Ends.gets ?_)
    cases hroom : core.activeSession.wouldExceedCap with
    | true => exact hcore
    | false =>
      refine Ends.bind ((saved_installAndSend hW hlive hcore (hW.spare hroom) direct handle msg
        entry).mono fun o core' h => ?_)
      cases o with
      | done answer => exact h
      | panicked => exact h
  | trySendRequest handle msg entry =>
    refine Ends.gets ?_
    cases hroom : core.activeSession.wouldExceedCap with
    | true => exact hcore
    | false => exact saved_installAndSend hW hlive hcore (hW.spare hroom) direct handle msg entry

theorem admits_performCtx (direct : Bool) (call : Call) (effect : CtxEffect H) :
    Moves (Admits W) (Bears W) (performCtx env direct call effect) := by
  intro core
  have hkeeps : Ends (performCtx env direct call effect) core _ :=
    keeps_performCtx env direct effect core
  have hsaved (hcore : Live core ∧ W core) :
      Ends (performCtx env direct call effect) core fun _ core' => W core' :=
    saved_performCtx hW direct effect hcore.1 hcore.2
  unfold Ends at hkeeps hsaved ⊢
  cases ho : (performCtx env direct call effect core).1 with
  | done a =>
    rw [ho] at hkeeps
    exact fun hcore => ⟨hkeeps hcore.1, hsaved hcore⟩
  | panicked => exact hsaved

theorem admits_handler (core : LooperCore H) (handler : H) :
    Admits W core { core with handler } := by
  have hstill : Still core { core with handler } := .silent ⟨rfl, rfl, rfl, rfl, rfl, rfl⟩ rfl rfl
  have haside : Aside core { core with handler } := .silent rfl rfl rfl rfl
  exact fun hcore => ⟨keeps_of_still hstill hcore.1, hW.aside haside hcore.2⟩

theorem saved_serveRequest (direct : Bool) (sessionId : UInt16) (token : Token) (inner : Bytes)
    (hlive : Live core) (hcore : W core) :
    Ends (serveRequest env direct sessionId token inner) core fun _ core' => W core' := by
  unfold serveRequest
  split
  · have hfailed : Moves (Saves W) (Saves W) (sendFailed env sessionId token) := by
      unfold sendFailed
      split
      · exact Moves.bind (saves_trySend hW _ _) fun _ => Moves.pure _
      · exact Moves.pure _
    exact Moves.saved (Moves.bind hfailed fun _ => Moves.pure _) hcore
  · next code _ =>
    have haside : Aside core (openPort sessionId token inner core).2 :=
      ⟨rfl, rfl, rfl, [.portOpened _ sessionId token inner], rfl, by simp⟩
    have hopen : Ends (openPort sessionId token inner) core fun _ core₁ => W core₁ :=
      hW.aside haside hcore
    refine Ends.seq ((stable_openPort sessionId token inner core hlive).and hopen) ?_
      fun _ h => h.1.elim
    rintro port core₁ ⟨hlive₁, hcore₁⟩
    have hcalled : Live (core₁.log (.called (.receiveRequest sessionId token inner))) :=
      live_log rfl (by simp) hlive₁
    have hrun : Moves (Admits W) (Bears W) (runScript (performCtx env direct
        (.receiveRequest sessionId token inner)) (code port core₁.handler)) :=
      moves_runScript (admits_handler hW) (admits_performCtx hW direct _) _
    apply ends_enter
    apply (hrun _).mono
    intro o core₂ ho
    have hstart : W (core₁.log (.called (.receiveRequest sessionId token inner))) :=
      hW.aside (.event (by simp) core₁) hcore₁
    cases o with
    | done flow => exact hW.aside (.note _ core₂) (ho ⟨hcalled, hstart⟩).2
    | panicked => exact hW.aside (.event (by simp) core₂) (ho ⟨hcalled, hstart⟩)

section Destruction

variable (hdestroy : ∀ reason, Moves (Saves W) (Saves W) (runDestruction env reason))

include hdestroy

theorem saved_dispatch (hcore : W core) (call : Call) (callback : H → Callback H) :
    Ends (dispatch env call callback) core fun _ core' => W core' :=
  Moves.saved (moves_dispatch hdestroy (saves_invoke hW call callback)) hcore

theorem saved_dispatchResolution {code : DispatchEntry H → H → Callback H} {event : Event}
    (hevent : ∀ t s, event ≠ .installed t s) (hlive : Live core) (hcore : W core) :
    Ends (dispatchResolution env t (fire env t call code event)) core fun _ core' => W core' := by
  have hsaved : Ends (fire env t call code event) core fun _ core' => W core' :=
    Moves.saved (saves_fire hW hevent) hcore
  apply Ends.bind
  apply Ends.catchUnwind
  apply ((mem_of_fire hlive.books).and hsaved).mono
  rintro o core₁ ⟨hmem, hcore₁⟩
  cases o with
  | panicked => exact Moves.saved (moves_failed hdestroy) hcore₁
  | done result =>
    cases result with
    | none => exact hcore₁
    | some flow =>
      have hresolved := hW.resolve core₁ t (hmem flow rfl) hcore₁
      exact Ends.modify (Moves.saved (moves_flowToOutcome hdestroy flow) hresolved)

theorem saved_dispatchRequestWithContext (direct : Bool) (sessionId : UInt16) (token : Token)
    (inner : Bytes) (hlive : Live core) (hcore : W core) :
    Ends (dispatchRequestWithContext env direct sessionId token inner) core
      fun _ core' => W core' := by
  refine Ends.modify (Ends.bind (Ends.catchUnwind ?_))
  have hhanded := live_log (e := .handed sessionId (.request token inner)) rfl (by simp) hlive
  apply (saved_serveRequest hW direct sessionId token inner hhanded
    (hW.aside (.event (by simp) core) hcore)).mono
  intro o core₁ hcore₁
  cases o with
  | done flow => exact Moves.saved (moves_flowToOutcome hdestroy flow) hcore₁
  | panicked => exact Moves.saved (moves_failed hdestroy) hcore₁

theorem saved_dispatchFrame (direct : Bool) (sessionId : UInt16) (frame : ServiceFrame)
    (hlive : Live core) (hcore : W core) :
    Ends (dispatchFrame env direct sessionId frame) core fun _ core' => W core' := by
  cases frame with
  | notification inner =>
    exact Moves.saved (moves_dispatchNotification hdestroy (saves_log hW (by simp))
      (saves_invoke hW _)) hcore
  | request token inner =>
    exact saved_dispatchRequestWithContext hW hdestroy direct sessionId token inner hlive hcore
  | reply token bytes => exact saved_dispatchResolution hW hdestroy (by simp) hlive hcore
  | failed token => exact saved_dispatchResolution hW hdestroy (by simp) hlive hcore

theorem saved_handle (msg : LooperMessage) (hlive : Live core) (hcore : W core) :
    Ends (handle env msg) core fun _ core' => W core' := by
  cases msg with
  | service sessionId payload =>
    show Ends (dispatchService env sessionId payload) core _
    unfold dispatchService
    cases env.pc.frameFromBytes payload with
    | none => exact hcore
    | some frame =>
      have hframe := saved_dispatchFrame hW hdestroy false sessionId frame hlive hcore
      cases frame <;> exact hframe
  | localRevoke sessionId =>
    exact Moves.saved (Moves.bind (saves_sendControl hW _) fun _ => Moves.pure _) hcore
  | newConnection registers => exact hcore
  | control msg =>
    cases msg with
    | lifecycle msg => exact saved_dispatch hW hdestroy hcore _ _
    | serviceTeardown sessionId reason =>
      exact Moves.saved (Moves.bind (saves_dispatchTeardown hW sessionId) fun _ => Moves.pure _)
        hcore
    | paneExited address reason => exact saved_dispatch hW hdestroy hcore _ _
    | _ => exact hcore

theorem saved_exec (op : Op) (hlive : Live core) (hcore : W core)
    (hroom : ∀ req, op = .syncRequest req → room core) :
    Ends (op.exec env) core fun _ core' => W core' := by
  cases op with
  | handle msg => exact saved_handle hW hdestroy msg hlive hcore
  | syncRequest req =>
    refine Ends.bind ((saved_processSyncRequest hW hlive hcore (hroom req rfl) req).mono ?_)
    intro o core' h
    cases o with
    | done _ => exact h
    | panicked => exact h
  | service direct sessionId frame =>
    exact saved_dispatchFrame hW hdestroy direct sessionId frame hlive hcore
  | tearDown sessionId reason =>
    exact Moves.saved (Moves.bind (saves_dispatchTeardown hW sessionId) fun _ =>
      moves_dispatch hdestroy (saves_invoke hW _ _)) hcore
  | connectSubscriber sessionId =>
    exact Moves.saved (moves_connectSubscriber hdestroy
      (fun f => moves_lockEnqueues f fun _ => hW.aside (.silent rfl rfl rfl rfl))
      (saves_invoke hW _)) hcore
  | write payload =>
    exact Moves.saved (Moves.bind (Moves.bind (saves_trySend hW 0 payload) fun _ => Moves.pure _)
      fun _ => Moves.pure _) hcore

theorem saved_act (act : Act) (hclosed : Ends (channelClosed env) core fun _ core' => W core')
    (hlive : Live core) (hcore : W core) (hroom : ∀ req, act = .op (.syncRequest req) → room core) :
    Ends (act.exec env) core fun _ core' => W core' := by
  cases act with
  | op op =>
    refine Ends.bind ((saved_exec hW hdestroy op hlive hcore fun req hop => ?_).mono
      fun o core' h => ?_)
    · exact hroom req (congrArg Act.op hop)
    · cases o with
      | panicked => exact h
      | done outcome =>
        cases outcome with
        | cont => exact h
        | exit reason => exact h
  | close => exact Ends.seq hclosed (fun _ _ h => h) fun _ h => h
  | fail => exact Moves.saved (Moves.bind (moves_infraError hdestroy) fun _ => Moves.pure _) hcore

end Destruction

end Upkeep

end Pane.LiveMoves
