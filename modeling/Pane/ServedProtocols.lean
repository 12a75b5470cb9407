import Pane.BatchScheduling
import Pane.BufferedMessages

namespace Pane.ServedProtocols

open Pane.HashTable Pane.Messages Pane.Callbacks Pane.Unwinding Pane.LooperState
open Pane.CoreDispatch Pane.CoreRequest Pane.Looper Pane.CoreRuns Pane.ContextEffects
open Pane.LooperPlan Pane.EventFilters Pane.VisibleEvents Pane.BatchPhases Pane.ArrivalOrder
open Pane.BatchScheduling Pane.PostcardFormat Pane.Setup Pane.BufferedMessages

variable {H : Type} {b b' : PaneBuilder H} {calls : List (BuilderCall H)}
  {handles : List ServiceHandle} {call : BuilderCall H}

section Builder

def deliveries : BuilderCall H → List LooperMessage
  | .connect (some rx) => rx
  | _ => []

def delivered (calls : List (BuilderCall H)) : List LooperMessage := calls.flatMap deliveries

def unread (b : PaneBuilder H) : List LooperMessage := b.rx.getD []

def opened : BuilderCall H → Option (Protocol H)
  | .openService _ p => some p
  | .openServiceWithRequests _ p => some p
  | _ => none

structure Built (calls : List (BuilderCall H)) (handles : List ServiceHandle)
    (b : PaneBuilder H) : Prop where
  provided : ∀ p, .serve p ∈ calls → ⟨p.serviceId, 1⟩ ∈ b.providedServices
  unread : ∀ msg ∈ unread b, msg ∈ delivered calls
  registered : ∀ s, s ∈ b.serviceDispatch.receivers ↔ ∃ handle ∈ handles, handle.sessionId = s
  origin : ∀ s receiver, b.serviceDispatch.receivers.lookup s = some receiver →
    ∃ call ∈ calls, ∃ p, opened call = some p ∧ receiver = makeServiceReceiver p ∧
      ∃ version, .control (.interestAccepted p.serviceId.uuid s version) ∈ delivered calls

structure Awaited (service : Uuid) (rx skipped rest : List LooperMessage)
    (result : Option UInt16) : Prop where
  unanswered : ∀ msg ∈ skipped, answer service msg = none
  split : (∃ msg, rx = skipped ++ msg :: rest ∧ answer service msg = some result) ∨
    rx = skipped ∧ rest = [] ∧ result = none

theorem ends_awaitAnswer (service : Uuid) (rx : List LooperMessage) (b : PaneBuilder H) :
    Ends (awaitAnswer service rx) b fun o b' => ∃ skipped rest result, o = .done result ∧
      b' = { b with rx := some rest, bufferedMessages := b.bufferedMessages ++ skipped } ∧
      Awaited service rx skipped rest result := by
  induction rx generalizing b with
  | nil => exact ⟨[], [], none, rfl, by rw [List.append_nil]; rfl, by simp, .inr ⟨rfl, rfl, rfl⟩⟩
  | cons msg rx ih =>
    rw [awaitAnswer]
    cases hanswer : answer service msg with
    | some result =>
      exact ⟨[], rx, result, rfl, by rw [List.append_nil]; rfl, by simp, .inl ⟨msg, rfl, hanswer⟩⟩
    | none =>
      apply Ends.modify
      apply (ih _).mono
      rintro o b' ⟨skipped, rest, result, rfl, rfl, hawaited⟩
      refine ⟨msg :: skipped, rest, result, rfl, by simp, ?_, ?_⟩
      · exact List.forall_mem_cons.mpr ⟨hanswer, hawaited.unanswered⟩
      · obtain ⟨last, rfl, hlast⟩ | ⟨rfl, hrest⟩ := hawaited.split
        · exact .inl ⟨last, rfl, hlast⟩
        · exact .inr ⟨rfl, hrest⟩

theorem accepted_of_answer {service : Uuid} {msg : LooperMessage} {s : UInt16}
    (h : answer service msg = some (some s)) :
    ∃ version, msg = .control (.interestAccepted service s version) := by
  cases msg with
  | control msg =>
    cases msg with
    | interestAccepted serviceUuid sessionId version =>
      rw [answer] at h
      split at h
      · rename_i heq
        cases h
        exact ⟨version, by rw [heq]⟩
      · cases h
    | interestDeclined serviceUuid reason =>
      rw [answer] at h
      split at h <;> cases h
    | _ => cases h
  | _ => cases h

structure Reads (b b' : PaneBuilder H) : Prop where
  provided : b'.providedServices = b.providedServices
  dispatch : b'.serviceDispatch = b.serviceDispatch
  unread : ∀ msg ∈ unread b', msg ∈ unread b

theorem Awaited.rest_subset {service : Uuid} {rx skipped rest : List LooperMessage}
    {result : Option UInt16} (h : Awaited service rx skipped rest result) :
    ∀ msg ∈ rest, msg ∈ rx := by
  intro msg hmsg
  obtain ⟨last, rfl, -⟩ | ⟨-, rfl, -⟩ := h.split
  · exact List.mem_append_right _ (List.mem_cons_of_mem _ hmsg)
  · exact absurd hmsg List.not_mem_nil

theorem Awaited.accepted {service : Uuid} {rx skipped rest : List LooperMessage} {s : UInt16}
    (h : Awaited service rx skipped rest (some s)) :
    ∃ version, .control (.interestAccepted service s version) ∈ rx := by
  obtain ⟨last, rfl, hlast⟩ | ⟨-, -, hnone⟩ := h.split
  · obtain ⟨version, rfl⟩ := accepted_of_answer hlast
    exact ⟨version, List.mem_append_right _ List.mem_cons_self⟩
  · cases hnone

theorem ends_openServiceInner (writable : Bool) (p : Protocol H) (b : PaneBuilder H) :
    Ends (openServiceInner writable p) b fun o b' => ∀ result, o = .done result → Reads b b' ∧
      ∀ s, result = some s → ∃ version,
        .control (.interestAccepted p.serviceId.uuid s version) ∈ unread b := by
  apply Ends.gets
  split
  · exact fun _ h => by cases h
  · apply Ends.modify
    apply Ends.gets
    have hunread : unread b = b.rx.getD [] := rfl
    cases hrx : b.rx with
    | none => exact fun _ h => by cases h
    | some rx =>
      rw [hrx] at hunread
      cases writable with
      | false =>
        refine Ends.pure fun result h => ?_
        cases h
        rw [hunread]
        exact ⟨⟨rfl, rfl, fun msg hmsg => hunread ▸ hmsg⟩, fun _ h => by cases h⟩
      | true =>
        apply Ends.modify
        apply (ends_awaitAnswer p.serviceId.uuid rx _).mono
        rintro o b' ⟨skipped, rest, result, rfl, rfl, hawaited⟩ result' h
        cases h
        rw [hunread]
        refine ⟨⟨rfl, rfl, fun msg hmsg => ?_⟩, fun s h => ?_⟩
        · rw [hunread]
          exact hawaited.rest_subset msg hmsg
        · subst h
          exact hawaited.accepted

theorem mem_delivered (call : BuilderCall H) {msg : LooperMessage} (h : msg ∈ delivered calls) :
    msg ∈ delivered (calls ++ [call]) := by
  rw [delivered, List.flatMap_append]
  exact List.mem_append_left _ h

theorem Built.reads (h : Built calls handles b) (hcall : ∀ p, call ≠ .serve p)
    (hreads : Reads b b') : Built (calls ++ [call]) handles b' where
  provided p hp := by
    rw [hreads.provided]
    obtain hp | hp := List.mem_append.mp hp
    · exact h.provided p hp
    · exact absurd (List.mem_singleton.mp hp).symm (hcall p)
  unread msg hmsg := mem_delivered call (h.unread msg (hreads.unread msg hmsg))
  registered s := by
    rw [hreads.dispatch]
    exact h.registered s
  origin s receiver hs := by
    rw [hreads.dispatch] at hs
    obtain ⟨c, hc, p, hp, hreceiver, version, hmem⟩ := h.origin s receiver hs
    exact ⟨c, List.mem_append_left _ hc, p, hp, hreceiver, version, mem_delivered call hmem⟩

theorem built_register (h : Built calls handles b) (hcall : call ∈ calls) {p : Protocol H}
    (hopened : opened call = some p) {s : UInt16} {version : UInt32}
    (haccepted : .control (.interestAccepted p.serviceId.uuid s version) ∈ delivered calls) :
    Ends (register s (makeServiceReceiver p)) b fun o b' => ∀ result, o = .done result →
      Built calls (handles ++ [⟨s, p.tag⟩]) b' := by
  apply Ends.gets
  split
  · exact fun _ ho => by cases ho
  · intro _ _
    refine ⟨h.provided, h.unread, fun t => ?_, fun t receiver ht => ?_⟩
    · show t ∈ b.serviceDispatch.receivers.insert s _ ↔ _
      rw [AList.mem_insert, h.registered t]
      constructor
      · rintro (rfl | ⟨handle, hmem, ht⟩)
        · exact ⟨_, List.mem_append_right _ List.mem_cons_self, rfl⟩
        · exact ⟨handle, List.mem_append_left _ hmem, ht⟩
      · rintro ⟨handle, hmem, rfl⟩
        obtain hmem | hmem := List.mem_append.mp hmem
        · exact .inr ⟨handle, hmem, rfl⟩
        · rw [List.mem_singleton.mp hmem]
          exact .inl rfl
    · have hlookup := (lookup_insert b.serviceDispatch.receivers t s _).symm.trans ht
      split at hlookup
      · rename_i heq
        cases hlookup
        exact ⟨call, hcall, p, hopened, rfl, version, heq ▸ haccepted⟩
      · exact h.origin t receiver hlookup

theorem built_registerRequest (h : Built calls handles b) (s : UInt16)
    (receiver : RequestReceiver H) :
    Ends (registerRequest s receiver) b fun o b' => ∀ result, o = .done result →
      Built calls handles b' := by
  apply Ends.gets
  split
  · exact fun _ ho => by cases ho
  · exact fun _ _ => ⟨h.provided, h.unread, h.registered, h.origin⟩

theorem Built.serve (h : Built calls handles b) (p : Protocol H) :
    Built (calls ++ [.serve p]) handles
      { b with providedServices := b.providedServices ++ [⟨p.serviceId, 1⟩] } where
  provided q hq := by
    obtain hq | hq := List.mem_append.mp hq
    · exact List.mem_append_left _ (h.provided q hq)
    · cases List.mem_singleton.mp hq
      exact List.mem_append_right _ List.mem_cons_self
  unread msg hmsg := mem_delivered _ (h.unread msg hmsg)
  registered := h.registered
  origin s receiver hs := by
    obtain ⟨c, hc, q, hq, hreceiver, version, hmem⟩ := h.origin s receiver hs
    exact ⟨c, List.mem_append_left _ hc, q, hq, hreceiver, version, mem_delivered _ hmem⟩

theorem Built.connect (h : Built calls handles b) (rx : List LooperMessage) :
    Built (calls ++ [.connect (some rx)]) handles { b with rx := some rx } where
  provided q hq := by
    obtain hq | hq := List.mem_append.mp hq
    · exact h.provided q hq
    · cases List.mem_singleton.mp hq
  unread msg hmsg := by
    rw [delivered, List.flatMap_append]
    have hrx : msg ∈ rx := hmsg
    exact List.mem_append_right _ (by simpa [deliveries] using hrx)
  registered := h.registered
  origin s receiver hs := by
    obtain ⟨c, hc, q, hq, hreceiver, version, hmem⟩ := h.origin s receiver hs
    exact ⟨c, List.mem_append_left _ hc, q, hq, hreceiver, version, mem_delivered _ hmem⟩

theorem built_openServiceInner (h : Built calls handles b) (writable : Bool) {p : Protocol H}
    (hopened : opened call = some p) :
    Ends (openServiceInner writable p) b fun o b' => ∀ result, o = .done result →
      Built (calls ++ [call]) handles b' ∧ ∀ s, result = some s → ∃ version,
        .control (.interestAccepted p.serviceId.uuid s version) ∈ delivered (calls ++ [call]) := by
  have hcall : ∀ q, call ≠ .serve q := by
    rintro q rfl
    cases hopened
  apply (ends_openServiceInner writable p b).mono
  intro o b' hends result ho
  obtain ⟨hreads, haccepted⟩ := hends result ho
  refine ⟨h.reads hcall hreads, fun s hs => ?_⟩
  obtain ⟨version, hmem⟩ := haccepted s hs
  exact ⟨version, mem_delivered call (h.unread _ hmem)⟩

theorem Built.no_handle (h : Built calls handles b) :
    Built calls (handles ++ (none : Option ServiceHandle).toList) b := by
  rwa [Option.toList_none, List.append_nil]

theorem built_exec (h : Built calls handles b) (call : BuilderCall H) :
    Ends call.exec b fun o b' => ∀ handle, o = .done handle →
      Built (calls ++ [call]) (handles ++ handle.toList) b' := by
  cases call with
  | serve p =>
    apply Ends.bind
    apply Ends.gets
    split
    · exact fun _ ho => by cases ho
    · intro handle ho
      cases ho
      exact (h.serve p).no_handle
  | connect conn =>
    apply Ends.bind
    apply Ends.gets
    split
    · exact fun _ ho => by cases ho
    · cases conn with
      | none =>
        intro handle ho
        cases ho
        exact (h.reads (fun _ => by simp) ⟨rfl, rfl, fun _ h => h⟩).no_handle
      | some rx =>
        intro handle ho
        cases ho
        exact (h.connect rx).no_handle
  | openService writable p =>
    have hopened : opened (.openService writable p) = some p := rfl
    refine Ends.seq (built_openServiceInner h writable hopened) ?_ fun _ _ _ ho => by cases ho
    intro result b₁ hresult
    obtain ⟨hbuilt, haccepted⟩ := hresult result rfl
    cases result with
    | none =>
      intro handle ho
      cases ho
      exact hbuilt.no_handle
    | some s =>
      obtain ⟨version, hmem⟩ := haccepted s rfl
      refine Ends.seq (built_register hbuilt (List.mem_append_right _ List.mem_cons_self) hopened hmem)
        ?_ fun _ _ _ ho => by cases ho
      intro _ b₂ hregistered handle ho
      cases ho
      exact hregistered () rfl
  | openServiceWithRequests writable p =>
    have hopened : opened (.openServiceWithRequests writable p) = some p := rfl
    refine Ends.seq (built_openServiceInner h writable hopened) ?_ fun _ _ _ ho => by cases ho
    intro result b₁ hresult
    obtain ⟨hbuilt, haccepted⟩ := hresult result rfl
    cases result with
    | none =>
      intro handle ho
      cases ho
      exact hbuilt.no_handle
    | some s =>
      obtain ⟨version, hmem⟩ := haccepted s rfl
      refine Ends.seq (built_register hbuilt (List.mem_append_right _ List.mem_cons_self) hopened hmem)
        ?_ fun _ _ _ ho => by cases ho
      intro _ b₂ hregistered
      refine Ends.seq (built_registerRequest (hregistered () rfl) s _) ?_ fun _ _ _ ho => by cases ho
      intro _ b₃ hrequests handle ho
      cases ho
      exact hrequests () rfl

theorem built_setup (h : Built calls handles b) (more : List (BuilderCall H)) :
    Ends (setup more) b fun o b' => ∀ hs, o = .done hs → Built (calls ++ more) (handles ++ hs) b' := by
  induction more generalizing calls handles b with
  | nil =>
    intro hs ho
    cases ho
    rw [List.append_nil, List.append_nil]
    exact h
  | cons call more ih =>
    refine Ends.seq (built_exec h call) ?_ fun _ _ _ ho => by cases ho
    intro handle b₁ hbuilt
    refine Ends.seq (ih (hbuilt handle rfl)) ?_ fun _ _ _ ho => by cases ho
    intro hs b₂ hrest hs' ho
    cases ho
    rw [← List.append_assoc, List.append_cons]
    exact hrest hs rfl

theorem built_new : Built [] [] (PaneBuilder.new : PaneBuilder H) where
  provided _ h := absurd h List.not_mem_nil
  unread _ h := absurd h List.not_mem_nil
  registered s := by simp [PaneBuilder.new]
  origin _ _ h := by cases h

end Builder

section Receivers

variable (env : Env H) {core core' : LooperCore H} {s : UInt16}

def noteOf (s : UInt16) : Event → Option Bytes
  | .handed sessionId (.notification inner) => if sessionId = s then some inner else none
  | _ => none

def receiveOf (s : UInt16) : Event → Option Bytes
  | .called (.receive sessionId inner) => if sessionId = s then some inner else none
  | _ => none

/-- The notifications of a session that went to the dispatch table. -/
def notified (s : UInt16) (core : LooperCore H) : List Bytes := core.trace.filterMap (noteOf s)

def received (s : UInt16) (core : LooperCore H) : List Bytes := core.trace.filterMap (receiveOf s)

def Pairs (s : UInt16) (core core' : LooperCore H) : Prop :=
  ∃ es, core'.trace = core.trace ++ es ∧ es.filterMap (receiveOf s) =
    if s ∈ env.serviceDispatch.receivers then es.filterMap (noteOf s) else []

theorem Pairs.trans {core'' : LooperCore H} (h : Pairs env s core core')
    (h' : Pairs env s core' core'') : Pairs env s core core'' := by
  obtain ⟨es, htrace, hes⟩ := h
  obtain ⟨es', htrace', hes'⟩ := h'
  refine ⟨es ++ es', by rw [htrace', htrace, List.append_assoc], ?_⟩
  rw [List.filterMap_append, hes, hes', List.filterMap_append]
  split <;> rfl

instance : Std.Refl (Pairs env s) := ⟨fun _ => ⟨[], by simp⟩⟩

instance : IsTrans (LooperCore H) (Pairs env s) := ⟨fun _ _ _ h h' => h.trans env h'⟩

instance : Trans (Pairs env s) (Pairs env s) (Pairs env s) := ⟨fun h h' => h.trans env h'⟩

def Elsewhere (s : UInt16) (e : Event) : Prop := receiveOf s e = none ∧ noteOf s e = none

theorem admits_elsewhere : Admits (Elsewhere s) fun _ => True where
  work e he := by cases e <;> simp_all [isWork, Elsewhere, receiveOf, noteOf]
  panicked _ _ := ⟨rfl, rfl⟩
  onFailed _ := ⟨rfl, rfl⟩
  notes _ _ := trivial

theorem pairs_of_shows (h : Shows (Elsewhere s) core core') : Pairs env s core core' := by
  obtain ⟨es, htrace, hes⟩ := h.trace
  refine ⟨es, htrace, ?_⟩
  rw [List.filterMap_eq_nil_iff.mpr fun e he => (hes e he).1,
    List.filterMap_eq_nil_iff.mpr fun e he => (hes e he).2]
  split <;> rfl

theorem pairs_moves {α : Type} {m : Loop H α} (h : Moves (Shows (Elsewhere s)) (Shows (Elsewhere s)) m) :
    Moves (Pairs env s) (Pairs env s) m :=
  h.mono (fun _ _ => pairs_of_shows env) fun _ _ => pairs_of_shows env

theorem pairs_dispatchNotification (inner : Bytes) :
    Moves (Pairs env s) (Pairs env s) (dispatchNotification env s inner) := by
  apply Moves.of_always
  intro core
  apply Ends.modify
  cases hlookup : env.serviceDispatch.receivers.lookup s with
  | none =>
    refine Ends.pure ⟨[.handed s (.notification inner)], rfl, ?_⟩
    rw [if_neg (AList.lookup_eq_none.mp hlookup)]
    rfl
  | some receiver =>
    have hs : s ∈ env.serviceDispatch.receivers := mem_of_lookup hlookup
    -- however the call ends, nothing else of the session follows
    have hrest {core₁ core₂ : LooperCore H}
        (h : Shows (Elsewhere s) ((core.log (.handed s (.notification inner))).log
          (.called (.receive s inner))) core₁) (h' : Shows (Elsewhere s) core₁ core₂) :
        Pairs env s core core₂ := by
      have hcall : Pairs env s core ((core.log (.handed s (.notification inner))).log
          (.called (.receive s inner))) := by
        refine ⟨[.handed s (.notification inner), .called (.receive s inner)],
          List.append_assoc .., ?_⟩
        rw [if_pos hs]
        simp [List.filterMap_cons, receiveOf, noteOf]
      exact hcall.trans env (pairs_of_shows env (h.trans h'))
    apply Ends.bind
    apply Ends.catchUnwind
    apply (ends_entered (works_perform env) (receiver.run inner) _).mono
    rintro o core' ⟨core₁, hworks, ho⟩
    have h₁ := only_of_works admits_elsewhere (E := Elsewhere s) (fun _ => trivial) hworks
    cases o with
    | done flow =>
      subst ho
      apply ((only_flowToOutcome env admits_elsewhere flow).always _).mono
      exact fun _ core₂ h₂ => hrest (h₁.trans (only_note trivial core₁)) h₂
    | panicked =>
      subst ho
      apply ((only_failed env admits_elsewhere).always _).mono
      exact fun _ core₂ h₂ => hrest (h₁.trans (only_log ⟨rfl, rfl⟩ core₁)) h₂

theorem pairs_dispatchFrame (direct : Bool) (sessionId : UInt16) (frame : ServiceFrame) :
    Moves (Pairs env s) (Pairs env s) (dispatchFrame env direct sessionId frame) := by
  by_cases hs : sessionId = s
  · subst hs
    cases frame with
    | notification inner => exact pairs_dispatchNotification env inner
    | _ =>
      refine pairs_moves env (only_dispatchFrame env admits_elsewhere direct sessionId _ ?_
        fun _ => trivial)
      simp [ofFrame, Elsewhere, receiveOf, noteOf]
  · refine pairs_moves env (only_dispatchFrame env admits_elsewhere direct sessionId frame ?_
      fun _ => trivial)
    cases frame <;> simp [ofFrame, Elsewhere, receiveOf, noteOf, hs]

theorem pairs_act (act : Act) : Moves (Pairs env s) (Pairs env s) (act.exec env) := by
  have hservice (direct : Bool) (sessionId : UInt16) (frame : ServiceFrame) :
      Moves (Pairs env s) (Pairs env s) (Act.exec env (.op (.service direct sessionId frame))) := by
    refine Moves.bind (pairs_dispatchFrame env direct sessionId frame) fun outcome => ?_
    cases outcome with
    | cont => exact Moves.pure _
    | exit reason => exact Moves.pure _
  have hother (act : Act) (h : ∀ e ∈ ofAct env.pc act, Elsewhere s e) :
      Moves (Pairs env s) (Pairs env s) (act.exec env) :=
    pairs_moves env (only_act env admits_elsewhere act h fun _ _ _ => trivial)
  cases act with
  | close => exact hother _ (by simp [ofAct, Elsewhere, receiveOf, noteOf])
  | fail => exact hother _ (by simp [ofAct])
  | op op =>
    cases op with
    | service direct sessionId frame => exact hservice direct sessionId frame
    | handle msg =>
      cases msg with
      | service sessionId payload =>
        rw [exec_handle_service]
        cases env.pc.frameFromBytes payload with
        | none => exact Moves.pure _
        | some frame => exact hservice false sessionId frame
      | control msg =>
        cases msg <;> exact hother _ (by simp [ofAct, ofOp, ofMessage, Elsewhere, receiveOf, noteOf])
      | _ => exact hother _ (by simp [ofAct, ofOp, ofMessage])
    | _ => exact hother _ (by simp [ofAct, ofOp, Elsewhere, receiveOf, noteOf])

theorem received_of_pairs {handler : H} {primaryConnection : PeerScope}
    (h : Pairs env s (LooperCore.new handler primaryConnection) core) :
    received s core = if s ∈ env.serviceDispatch.receivers then notified s core else [] := by
  obtain ⟨es, htrace, hes⟩ := h
  have hnil : core.trace = es := htrace
  rw [received, notified, hnil, hes]

end Receivers

section Runs

variable (env : Env H) {core : LooperCore H} {s : UInt16}

def served (buffered : List LooperMessage) (ticks : List Tick) : Loop H (Except ExitReason LoopState) := do
  match ← drainBuffered env buffered with
  | some reason => return .error reason
  | none => runTicks env ⟨Batch.new, false⟩ ticks

theorem runWith_eq (buffered : List LooperMessage) (ticks : List Tick) :
    runWith env buffered false ticks = do
      match ← served env buffered ticks with
      | .error reason => return some reason
      | .ok _ => return none := by
  have hrun : Looper.run env false ticks = mainLoop env ⟨Batch.new, false⟩ ticks := rfl
  funext core
  rw [runWith, served, hrun, mainLoop_eq, Code.bind_apply, Code.bind_apply, Code.bind_apply]
  cases drainBuffered env buffered core with
  | mk o core₁ =>
    cases o with
    | panicked => rfl
    | done exit =>
      cases exit with
      | some reason => rfl
      | none => rfl

theorem pairs_drained (buffered : List LooperMessage) :
    Moves (Pairs env s) (Pairs env s) (drainBuffered env buffered) := by
  rw [drainBuffered_eq, execAll, Code.firstOf_map]
  exact Moves.firstOf (fun msg => pairs_act env (drainAct msg)) buffered

theorem pairs_runTicks (state : LoopState) (ticks : List Tick) :
    Moves (Pairs env s) (Pairs env s) (runTicks env state ticks) := by
  apply Moves.of_always
  intro core
  have hloop : Pairs env s core (mainLoop env state ticks core).2 := by
    rw [mainLoop_plan]
    exact (related_of_visited env (fun act => (pairs_act env act).always) _ core).1
  rw [mainLoop_eq, Code.bind_apply] at hloop
  unfold Ends
  cases hrun : runTicks env state ticks core with
  | mk o core' =>
    rw [hrun] at hloop
    cases o with
    | panicked => exact hloop
    | done result =>
      cases result with
      | error reason => exact hloop
      | ok state' => exact hloop

theorem pairs_served (buffered : List LooperMessage) (ticks : List Tick) :
    Moves (Pairs env s) (Pairs env s) (served env buffered ticks) := by
  refine Moves.bind (pairs_drained env buffered) fun exit => ?_
  cases exit with
  | some reason => exact Moves.pure _
  | none => exact pairs_runTicks env _ ticks

theorem seenOf_kept (pc : Postcard) (msg : LooperMessage) : seenOf pc (kept msg) = seenOf pc msg := by
  cases msg with
  | control msg => cases msg <;> rfl
  | _ => rfl

theorem drained_filterMap {α : Type} {f : Event → Option α} {g : Input → Option α}
    (hf : ∀ e, isVisible e = false → f e = none)
    (hfg : ∀ msg, (seenOf env.pc msg).filterMap f = (g (.message msg)).toList)
    (msgs : List LooperMessage) (core : LooperCore H) :
    Ends (drainBuffered env msgs) core fun o core' => ∃ more,
      core'.trace.filterMap f = core.trace.filterMap f ++ more ∧
      more <+: (msgs.map Input.message).filterMap g ∧
      (o = .done none → more = (msgs.map Input.message).filterMap g) := by
  induction msgs generalizing core with
  | nil => exact ⟨[], by rw [List.append_nil]; rfl, List.prefix_rfl, fun _ => rfl⟩
  | cons msg msgs ih =>
    have hstep : Ends (drainMessage env msg) core fun _ core' =>
        core'.trace.filterMap f = core.trace.filterMap f ++ (g (.message msg)).toList := by
      rw [drainMessage_eq]
      apply ((adds_handle env (kept msg)).always core).mono
      intro _ core' hadds
      rw [hadds.filterMap hf, seenOf_kept, hfg]
    have hcons : ((msg :: msgs).map Input.message).filterMap g =
        (g (.message msg)).toList ++ (msgs.map Input.message).filterMap g := by
      rw [List.map_cons, ← List.singleton_append, List.filterMap_append, filterMap_singleton]
    rw [hcons]
    refine Ends.bind (Ends.seq hstep ?_ fun core' htrace =>
      ⟨_, htrace, List.prefix_append _ _, fun h => by cases h⟩)
    intro outcome core' htrace
    cases outcome with
    | exit reason => exact ⟨_, htrace, List.prefix_append _ _, fun h => by cases h⟩
    | cont =>
      obtain ⟨more, htrace', hstart, hall⟩ := ih core'
      refine ⟨(g (.message msg)).toList ++ more, ?_, ?_, fun h => by rw [hall h]⟩
      · exact htrace'.trans (by rw [htrace, List.append_assoc])
      · exact (List.prefix_append_right_inj _).mpr hstart

theorem requestIn_seenOf (pc : Postcard) (msg : LooperMessage) :
    (seenOf pc msg).filterMap requestIn = (requestOf pc (.message msg)).toList := by
  cases msg with
  | service sessionId payload =>
    simp only [seenOf, requestOf]
    cases pc.frameFromBytes payload with
    | none => rfl
    | some frame => cases frame <;> rfl
  | _ => rfl

theorem notificationIn_seenOf (pc : Postcard) (msg : LooperMessage) :
    (seenOf pc msg).filterMap notificationIn = (notificationOf pc (.message msg)).toList := by
  cases msg with
  | service sessionId payload =>
    simp only [seenOf, notificationOf]
    cases pc.frameFromBytes payload with
    | none => rfl
    | some frame => cases frame <;> rfl
  | _ => rfl

def lostIn : Event → Option Unit
  | .called .disconnected => some ()
  | _ => none

theorem lostIn_of_hidden {e : Event} (h : isVisible e = false) : lostIn e = none := by
  cases e with
  | called call => cases call <;> simp_all [isVisible, lostIn]
  | _ => rfl

theorem lostIn_seenOf (pc : Postcard) (msg : LooperMessage) :
    (seenOf pc msg).filterMap lostIn = [] := by
  cases msg with
  | service sessionId payload =>
    simp only [seenOf]
    cases pc.frameFromBytes payload with
    | none => rfl
    | some frame => cases frame <;> rfl
  | _ => rfl

def on (s : UInt16) (n : UInt16 × Bytes) : Option Bytes := if n.1 = s then some n.2 else none

theorem notified_eq (s : UInt16) (core : LooperCore H) :
    notified s core = (core.trace.filterMap notificationIn).filterMap (on s) := by
  rw [notified, List.filterMap_filterMap]
  apply List.filterMap_congr
  intro e _
  cases e with
  | handed sessionId frame => cases frame <;> rfl
  | _ => rfl

theorem sifted_refl {α : Type} {skipped : α → Prop} (as : List α) : Sifted skipped as as := by
  induction as with
  | nil => exact .nil
  | cons a as ih => exact .keep a ih

theorem on_of_scheduled {revoked : UInt16 → Prop} {arrived dispatched left : List (UInt16 × Bytes)}
    (h : Scheduled revoked Prod.fst arrived dispatched left) (hs : ¬ revoked s) :
    arrived.filterMap (on s) = dispatched.filterMap (on s) ++ left.filterMap (on s) := by
  obtain ⟨taken, rfl, hsifted⟩ := h
  rw [List.filterMap_append]
  congr 1
  induction hsifted with
  | nil => rfl
  | keep n _ ih => rw [List.filterMap_cons, List.filterMap_cons, ih]
  | @skip n _ _ hn _ ih =>
    have hne : n.1 ≠ s := fun heq => hs (heq ▸ hn)
    rw [List.filterMap_cons_none (by simp [on, hne]), ih]

/-- What the session was sent, as far as the looper gets to see it. -/
def arrivedOn (pc : Postcard) (s : UInt16) (buffered : List LooperMessage) (ticks : List Tick) :
    List Bytes :=
  ((buffered.map Input.message ++ ticks.flatMap Tick.inputs).filterMap
    (notificationOf pc)).filterMap (on s)

theorem inputs_alone (elapsed : Nat → Bool) (msgs : List LooperMessage) :
    (alone elapsed msgs).flatMap Tick.inputs = msgs.map Input.message := by
  induction msgs with
  | nil => rfl
  | cons msg msgs ih =>
    have hcons : (alone elapsed (msg :: msgs)).flatMap Tick.inputs =
        .message msg :: (alone elapsed msgs).flatMap Tick.inputs := rfl
    rw [hcons, ih, List.map_cons]

theorem tracked_drainBuffered (buffered : List LooperMessage) (handler : H)
    (primaryConnection : PeerScope) :
    Ends (drainBuffered env buffered) (LooperCore.new handler primaryConnection) fun o core =>
      core.trace.filterMap notificationIn <+:
        (buffered.map Input.message).filterMap (notificationOf env.pc) ∧
      (o = .done none → Tracked env.pc (alone (fun _ => false) buffered) [] [] core.trace ∧
        .called .disconnected ∉ core.trace) := by
  have hnotes := drained_filterMap env (fun _ => notificationIn_of_hidden)
    (notificationIn_seenOf env.pc) buffered (LooperCore.new handler primaryConnection)
  have hrequests := drained_filterMap env (fun _ => requestIn_of_hidden)
    (requestIn_seenOf env.pc) buffered (LooperCore.new handler primaryConnection)
  have hlost := drained_filterMap env (f := lostIn) (g := fun _ => none)
    (fun _ => lostIn_of_hidden) (lostIn_seenOf env.pc) buffered
    (LooperCore.new handler primaryConnection)
  apply (hnotes.and (hrequests.and hlost)).mono
  rintro o core ⟨⟨notes, htrace, hstart, hall⟩, ⟨requests, htrace', -, hall'⟩, lost, hlost, hnone, -⟩
  refine ⟨htrace ▸ hstart, fun ho => ⟨⟨⟨_, (List.append_nil _).symm, ?_⟩,
    ⟨_, (List.append_nil _).symm, ?_⟩⟩, fun hmem => ?_⟩⟩
  · rw [htrace', hall' ho, requestsIn, inputs_alone]
    exact sifted_refl _
  · rw [htrace, hall ho, notificationsIn, inputs_alone]
    exact sifted_refl _
  · obtain rfl : lost = [] := by simpa using hnone
    have hnil : core.trace.filterMap lostIn = [] := hlost
    exact absurd (List.filterMap_eq_nil_iff.mp hnil _ hmem) (by simp [lostIn])

theorem notified_served {buffered : List LooperMessage} {ticks : List Tick}
    (hbuffered : .localRevoke s ∉ buffered) (hticks : ¬ Revoked ticks s) (handler : H)
    (primaryConnection : PeerScope) :
    Ends (served env buffered ticks) (LooperCore.new handler primaryConnection) fun o core =>
      notified s core <+: arrivedOn env.pc s buffered ticks ∧
      ∀ state, o = .done (.ok state) → arrivedOn env.pc s buffered ticks =
        notified s core ++ state.batch.notifications.filterMap (on s) := by
  have hbegin {core : LooperCore H} (hstart : core.trace.filterMap notificationIn <+:
        (buffered.map Input.message).filterMap (notificationOf env.pc)) :
      notified s core <+: arrivedOn env.pc s buffered ticks := by
    rw [notified_eq, arrivedOn, List.filterMap_append, List.filterMap_append]
    exact (hstart.filterMap (on s)).trans (List.prefix_append _ _)
  refine Ends.seq (tracked_drainBuffered env buffered handler primaryConnection) ?_
    fun core₁ h => ⟨hbegin h.1, fun _ h => by cases h⟩
  rintro exit core₁ ⟨hstart, hdrained⟩
  cases exit with
  | some reason => exact Ends.pure ⟨hbegin hstart, fun _ h => by cases h⟩
  | none =>
    obtain ⟨htracked, hnot⟩ := hdrained rfl
    apply (kept_runTicks env ⟨Batch.new, false⟩ ticks core₁ htracked
      (fun t ht => absurd ht (AList.notMem_empty t)) hnot).mono
    rintro o core₂ ⟨polled, requests, notifications, hkept⟩
    have hpast : ¬ Revoked (alone (fun _ => false) buffered ++ polled) s := by
      rw [Revoked, List.flatMap_append, inputs_alone, List.mem_append]
      rintro (hmem | hmem)
      · obtain ⟨msg, hmsg, heq⟩ := List.mem_map.mp hmem
        cases heq
        exact hbuffered hmsg
      · obtain ⟨rest, rfl⟩ := hkept.start
        exact hticks (by rw [Revoked, List.flatMap_append]; exact List.mem_append_left _ hmem)
    have harrived := on_of_scheduled hkept.tracked.notifications hpast
    rw [← notified_eq, notificationsIn, List.flatMap_append, inputs_alone] at harrived
    refine ⟨?_, fun state ho => ?_⟩
    · obtain ⟨rest, rfl⟩ := hkept.start
      rw [arrivedOn, List.flatMap_append, ← List.append_assoc, List.filterMap_append,
        List.filterMap_append, harrived, List.append_assoc]
      exact List.prefix_append _ _
    · obtain ⟨rfl, -, hleft⟩ := hkept.left state ho
      rw [← hleft]
      exact harrived

end Runs

section Served

variable (env : Env H)

/-- The tag byte of the protocol, and then a message that decodes. -/
def decodes (p : Protocol H) : Bytes → Bool
  | [] => false
  | first :: body => first = p.tag && (p.receive body).isSome

theorem run_makeServiceReceiver {p : Protocol H} {body : Bytes} {receive : H → Callback H}
    (h : p.receive body = some receive) :
    (makeServiceReceiver p).run (p.tag :: body) = receive := by
  funext handler
  rw [ServiceReceiver.run, makeServiceReceiver, if_pos rfl]
  dsimp only
  rw [h]

/-- A pane that serves `p`. The notifications of a session that was announced for the
protocol are handed over once and in order; its `receive` is called with each of
those that decode, once, if and only if one of the pane's own calls of `open_service`
has returned this session, or there are none. -/
theorem served_notifications_iff {calls : List (BuilderCall H)} {handles : List ServiceHandle}
    {b : PaneBuilder H} (hsetup : setup calls PaneBuilder.new = (.done handles, b))
    {p : Protocol H} (hserve : .serve p ∈ calls) (hdispatch : env.serviceDispatch = b.serviceDispatch)
    {s : UInt16} (hannounced : ∀ uuid version,
      .control (.interestAccepted uuid s version) ∈ delivered calls → uuid = p.serviceId.uuid)
    (hprotocol : ∀ call ∈ calls, ∀ q, opened call = some q →
      q.serviceId.uuid = p.serviceId.uuid → q = p)
    (handler : H) (primaryConnection : PeerScope) {ticks : List Tick}
    (hbuffered : .localRevoke s ∉ b.bufferedMessages) (hticks : ¬ Revoked ticks s) :
    ⟨p.serviceId, 1⟩ ∈ b.providedServices ∧
    ((∃ handle ∈ handles, handle.sessionId = s) → ∃ receiver,
      env.serviceDispatch.receivers.lookup s = some receiver ∧
      ∀ body receive, p.receive body = some receive → receiver.run (p.tag :: body) = receive) ∧
    Ends (served env b.bufferedMessages ticks) (LooperCore.new handler primaryConnection)
      fun o core =>
        (notified s core <+: arrivedOn env.pc s b.bufferedMessages ticks ∧
          ∀ state, o = .done (.ok state) → arrivedOn env.pc s b.bufferedMessages ticks =
            notified s core ++ state.batch.notifications.filterMap (on s)) ∧
        ((received s core).filter (decodes p) = (notified s core).filter (decodes p) ↔
          (∃ handle ∈ handles, handle.sessionId = s) ∨
            (notified s core).filter (decodes p) = []) := by
  have hbuilt : Built calls handles b := by
    have hends := built_setup (built_new (H := H)) calls
    unfold Ends at hends
    rw [hsetup] at hends
    exact hends handles rfl
  refine ⟨hbuilt.provided p hserve, fun hhandle => ?_, ?_⟩
  · obtain ⟨receiver, hlookup⟩ := mem_iff_lookup.mp ((hbuilt.registered s).mpr hhandle)
    obtain ⟨call, hcall, q, hopened, rfl, version, hmem⟩ := hbuilt.origin s receiver hlookup
    obtain rfl := hprotocol call hcall q hopened (hannounced _ version hmem)
    exact ⟨_, hdispatch ▸ hlookup, fun _ _ => run_makeServiceReceiver⟩
  · refine Ends.and (notified_served env hbuffered hticks handler primaryConnection) ?_
    apply ((pairs_served env b.bufferedMessages ticks).always _).mono
    intro _ core hpairs
    rw [received_of_pairs env hpairs, hdispatch, ← hbuilt.registered s]
    split
    · rename_i hs
      exact ⟨fun _ => .inl hs, fun _ => rfl⟩
    · rename_i hs
      rw [List.filter_nil]
      exact ⟨fun h => .inr h.symm, fun h => (h.resolve_left hs).symm⟩

namespace Names

def accepted (s : UInt16) : LooperMessage :=
  .control (.interestAccepted BufferedMessages.Names.service.uuid s 1)

def published (s : UInt16) : LooperMessage :=
  .service s ((postcard.frameToAllocvec (.notification [0, 5])).getD [])

def ended (calls : List (BuilderCall Unit)) (msgs : List LooperMessage) : LooperCore Unit :=
  let b := (setup calls PaneBuilder.new).2
  (served { Env.idle postcard with serviceDispatch := b.serviceDispatch } b.bufferedMessages
    (alone (fun _ => false) msgs) (LooperCore.new () ⟨1⟩)).2

def serving : List (BuilderCall Unit) :=
  [.serve BufferedMessages.Names.protocol, .connect (some [])]

/-- It opens the service as well, and takes the announcement for its answer. -/
def opening : List (BuilderCall Unit) :=
  [.serve BufferedMessages.Names.protocol, .connect (some [accepted 3]),
    .openService true BufferedMessages.Names.protocol]

end Names

theorem served_notifications_opened :
    notified 3 (Names.ended Names.opening [Names.published 3]) = [[0, 5]] ∧
      received 3 (Names.ended Names.opening [Names.published 3]) = [[0, 5]] ∧
      ((received 3 (Names.ended Names.opening [Names.published 3])).filter
        (decodes BufferedMessages.Names.protocol) =
          (notified 3 (Names.ended Names.opening [Names.published 3])).filter
            (decodes BufferedMessages.Names.protocol)) := by
  have hsetup : setup Names.opening PaneBuilder.new =
      (.done [⟨3, BufferedMessages.Names.protocol.tag⟩], (setup Names.opening PaneBuilder.new).2) := rfl
  have hannounced : ∀ uuid version,
      .control (.interestAccepted uuid 3 version) ∈ delivered Names.opening →
      uuid = BufferedMessages.Names.protocol.serviceId.uuid := by
    intro uuid version hmem
    cases List.mem_singleton.mp hmem
    rfl
  have hprotocol : ∀ call ∈ Names.opening, ∀ q, opened call = some q →
      q.serviceId.uuid = BufferedMessages.Names.protocol.serviceId.uuid →
      q = BufferedMessages.Names.protocol := by
    intro call hcall q hq _
    simp only [Names.opening, List.mem_cons, List.not_mem_nil, or_false] at hcall
    obtain rfl | rfl | rfl := hcall <;> cases hq
    rfl
  have hticks : ¬ Revoked (alone (fun _ => false) [Names.published 3]) 3 := by
    intro hmem
    cases List.mem_singleton.mp hmem
  have hiff := (served_notifications_iff
    { Env.idle postcard with serviceDispatch := (setup Names.opening PaneBuilder.new).2.serviceDispatch }
    hsetup List.mem_cons_self rfl hannounced hprotocol () ⟨1⟩ List.not_mem_nil hticks).2.2.2
  exact ⟨by decide +kernel, by decide +kernel, hiff.mpr (.inl ⟨_, List.mem_cons_self, rfl⟩)⟩

theorem served_notifications_unopened :
    (setup Names.serving PaneBuilder.new).1 = .done [] ∧
      decodes BufferedMessages.Names.protocol [0, 5] = true ∧
      notified 8 (Names.ended Names.serving [Names.accepted 8, Names.published 8]) = [[0, 5]] ∧
      received 8 (Names.ended Names.serving [Names.accepted 8, Names.published 8]) = [] :=
  ⟨rfl, rfl, by decide +kernel, by decide +kernel⟩

end Served

end Pane.ServedProtocols
