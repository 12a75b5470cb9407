import Pane.LooperPlan
import Pane.PostcardFormat

namespace Pane.Publishing

open Pane.HashTable Pane.Messages Pane.Callbacks Pane.Unwinding Pane.LooperState
open Pane.CoreDispatch Pane.CoreRequest Pane.Looper Pane.CoreRuns Pane.LooperPlan
open Pane.PostcardFormat

/-- What is between a `SubscriberSender` and the stream source of the event loop: a
queue that is first in, first out. -/
structure SubscriberStream where
  sessionId : UInt16
  pushed : List Bytes
  queue : List Bytes
  yielded : List Bytes

def SubscriberStream.new (sessionId : UInt16) : SubscriberStream := ⟨sessionId, [], [], []⟩

/-- `send_notification`: the frame is pushed, whatever becomes of it. -/
def SubscriberStream.push (payload : Bytes) (stream : SubscriberStream) : SubscriberStream :=
  { stream with pushed := stream.pushed ++ [payload], queue := stream.queue ++ [payload] }

/-- A frame that the callback of a stream source gave to the `SharedWriter`. -/
structure Write where
  stream : Nat
  service : UInt16
  payload : Bytes

/-- The loop state with the streams of its subscribers, in the order in which they
were connected. -/
structure Publisher where
  loop : LoopState
  streams : List SubscriberStream
  written : List Write

namespace Publisher

def new : Publisher := ⟨⟨Batch.new, false⟩, [], []⟩

def callback (p : Publisher) (i : Nat) (sessionId : UInt16) (payload : Bytes) : List Write :=
  if p.loop.sharedWriter then [⟨i, sessionId, payload⟩] else []

def poll (i : Nat) (p : Publisher) : Publisher :=
  match p.streams[i]? with
  | some ⟨sessionId, pushed, payload :: queue, yielded⟩ =>
    { p with
      streams := p.streams.set i ⟨sessionId, pushed, queue, yielded ++ [payload]⟩
      written := p.written ++ p.callback i sessionId payload }
  | _ => p

end Publisher

/-- A sender pushes, a stream is polled, or a whole tick of the main loop. -/
inductive Step
  | push (i : Nat) (payload : Bytes)
  | poll (i : Nat)
  | tick (t : Tick)

variable {H : Type} (env : Env H)

/-- Everybody who is announced in a tick gets a stream, before the handler is told. -/
def Step.exec (p : Publisher) : Step → Loop H (Except ExitReason Publisher)
  | .push i payload => return .ok { p with streams := p.streams.modify i (SubscriberStream.push payload) }
  | .poll i => return .ok (p.poll i)
  | .tick t => do
    match ← tickStep env p.loop t with
    | .error reason => return .error reason
    | .ok loop =>
      let batch := t.inputs.foldl (collectInput env.pc) p.loop.batch
      return .ok { p with loop, streams := p.streams ++ batch.subscriberConnected.map SubscriberStream.new }

def runSteps : Publisher → List Step → Loop H (Except ExitReason Publisher)
  | p, [] => return .ok p
  | p, step :: steps => do
    match ← step.exec env p with
    | .error reason => return .error reason
    | .ok p => runSteps p steps

variable {p p' : Publisher} {core core' : LooperCore H} {i : Nat} {stream : SubscriberStream}
  {written ws : List Write}

def writesOf (i : Nat) (written : List Write) : List (UInt16 × Bytes) :=
  (written.filter fun w => w.stream = i).map fun w => (w.service, w.payload)

def owed (stream : SubscriberStream) : List (UInt16 × Bytes) :=
  stream.yielded.map fun payload => (stream.sessionId, payload)

theorem writesOf_append (i : Nat) (written ws : List Write) :
    writesOf i (written ++ ws) = writesOf i written ++ writesOf i ws := by
  simp [writesOf]

theorem writesOf_callback_ne {j : Nat} (hij : i ≠ j) (p : Publisher) (sessionId : UInt16)
    (payload : Bytes) : writesOf j (p.callback i sessionId payload) = [] := by
  rw [Publisher.callback]
  split
  · simp [writesOf, hij]
  · rfl

theorem writesOf_callback (i : Nat) (p : Publisher) (sessionId : UInt16) (payload : Bytes) :
    writesOf i (p.callback i sessionId payload) =
      if p.loop.sharedWriter then [(sessionId, payload)] else [] := by
  rw [Publisher.callback]
  split
  · simp [writesOf]
  · rfl

structure Sound (written : List Write) (i : Nat) (stream : SubscriberStream) : Prop where
  queued : stream.pushed = stream.yielded ++ stream.queue
  written : (writesOf i written).Sublist (owed stream)

/-- Every stream is sound, and nothing is written for one that does not exist. -/
structure Orderly (p : Publisher) : Prop where
  sound : ∀ i stream, p.streams[i]? = some stream → Sound p.written i stream
  others : ∀ i, p.streams[i]? = none → writesOf i p.written = []

/-- All that a stream has yielded is written, with its session, once and in order. -/
def Faithful (p : Publisher) : Prop :=
  ∀ i stream, p.streams[i]? = some stream → writesOf i p.written = owed stream

def Short (i : Nat) (p : Publisher) : Prop :=
  ∃ stream, p.streams[i]? = some stream ∧ (writesOf i p.written).length < stream.yielded.length

theorem Short.not_faithful (h : Short i p) : ¬ Faithful p := by
  obtain ⟨stream, hi, hlt⟩ := h
  intro hfaithful
  rw [hfaithful i stream hi, owed, List.length_map] at hlt
  exact Nat.lt_irrefl _ hlt

/-- How a step changes one of the streams and what is written for it; `shared` says
that an item that it takes is written. -/
inductive Change (shared : Bool) (stream : SubscriberStream) (ws : List (UInt16 × Bytes)) :
    SubscriberStream → List (UInt16 × Bytes) → Prop
  | keep : Change shared stream ws stream ws
  | push (payload : Bytes) : Change shared stream ws (stream.push payload) ws
  | item {payload : Bytes} {queue : List Bytes} (h : stream.queue = payload :: queue) :
    Change shared stream ws
      { stream with queue, yielded := stream.yielded ++ [payload] }
      (ws ++ if shared then [(stream.sessionId, payload)] else [])

structure Moved (shared : Bool) (p p' : Publisher) : Prop where
  old : ∀ i stream, p.streams[i]? = some stream → ∃ stream', p'.streams[i]? = some stream' ∧
    Change shared stream (writesOf i p.written) stream' (writesOf i p'.written)
  new : ∀ i, p.streams[i]? = none → writesOf i p'.written = writesOf i p.written ∧
    ∀ stream, p'.streams[i]? = some stream → ∃ s, stream = SubscriberStream.new s

section Moved

variable {shared : Bool} {stream' : SubscriberStream} {vs vs' : List (UInt16 × Bytes)}

theorem Change.queued (h : Change shared stream vs stream' vs')
    (hstream : stream.pushed = stream.yielded ++ stream.queue) :
    stream'.pushed = stream'.yielded ++ stream'.queue := by
  cases h with
  | keep => exact hstream
  | push payload =>
    show stream.pushed ++ [payload] = stream.yielded ++ (stream.queue ++ [payload])
    rw [hstream, List.append_assoc]
  | item h =>
    rw [hstream, h]
    simp

theorem Change.sublist (h : Change shared stream vs stream' vs') (hvs : vs.Sublist (owed stream)) :
    vs'.Sublist (owed stream') := by
  cases h with
  | keep => exact hvs
  | push payload => exact hvs
  | item h =>
    rw [owed, List.map_append]
    refine hvs.append ?_
    split
    · exact List.Sublist.refl _
    · exact List.nil_sublist _

theorem Change.owed (h : Change true stream vs stream' vs') (hvs : vs = owed stream) :
    vs' = Publishing.owed stream' := by
  cases h with
  | keep => exact hvs
  | push payload => exact hvs
  | item h =>
    rw [hvs, Publishing.owed, Publishing.owed, List.map_append]
    rfl

theorem Change.short (h : Change shared stream vs stream' vs')
    (hlt : vs.length < stream.yielded.length) : vs'.length < stream'.yielded.length := by
  cases h with
  | keep => exact hlt
  | push payload => exact hlt
  | item h =>
    rw [List.length_append, List.length_append]
    split
    · simpa using hlt
    · exact Nat.lt_add_right 1 hlt

theorem Moved.split (h : Moved shared p p') (hi : p'.streams[i]? = some stream') :
    (∃ stream, p.streams[i]? = some stream ∧
      Change shared stream (writesOf i p.written) stream' (writesOf i p'.written)) ∨
    p.streams[i]? = none ∧ writesOf i p'.written = writesOf i p.written ∧
      ∃ s, stream' = SubscriberStream.new s := by
  cases hold : p.streams[i]? with
  | some stream =>
    obtain ⟨stream'', hi', hchange⟩ := h.old i stream hold
    cases hi.symm.trans hi'
    exact .inl ⟨stream, rfl, hchange⟩
  | none =>
    obtain ⟨hwrites, hnew⟩ := h.new i hold
    exact .inr ⟨rfl, hwrites, hnew stream' hi⟩

theorem Moved.orderly (h : Moved shared p p') (horderly : Orderly p) : Orderly p' where
  sound i stream' hi := by
    obtain ⟨stream, hold, hchange⟩ | ⟨hnone, hwrites, s, rfl⟩ := h.split hi
    · have hsound := horderly.sound i stream hold
      exact ⟨hchange.queued hsound.queued, hchange.sublist hsound.written⟩
    · refine ⟨rfl, ?_⟩
      rw [hwrites, horderly.others i hnone]
      exact List.nil_sublist _
  others i hi := by
    cases hold : p.streams[i]? with
    | some stream =>
      obtain ⟨stream', hi', -⟩ := h.old i stream hold
      cases hi.symm.trans hi'
    | none => rw [(h.new i hold).1, horderly.others i hold]

theorem Moved.faithful (h : Moved true p p') (horderly : Orderly p) (hp : Faithful p) :
    Faithful p' := by
  intro i stream' hi
  obtain ⟨stream, hold, hchange⟩ | ⟨hnone, hwrites, s, rfl⟩ := h.split hi
  · exact hchange.owed (hp i stream hold)
  · rw [hwrites, horderly.others i hnone]
    rfl

theorem Moved.short (h : Moved shared p p') (hp : Short i p) : Short i p' := by
  obtain ⟨stream, hi, hlt⟩ := hp
  obtain ⟨stream', hi', hchange⟩ := h.old i stream hi
  exact ⟨stream', hi', hchange.short hlt⟩

theorem moved_refl (shared : Bool) (p : Publisher) : Moved shared p p where
  old i stream hi := ⟨stream, hi, .keep⟩
  new i hi := ⟨rfl, fun stream hi' => by cases hi.symm.trans hi'⟩

end Moved

section Steps

def lossless (p : Publisher) : Step → Bool
  | .poll i => p.loop.sharedWriter || ((p.streams[i]?.map fun stream => stream.queue.isEmpty).getD true)
  | _ => true

theorem moved_push (i : Nat) (payload : Bytes) (p : Publisher) :
    Moved true p { p with streams := p.streams.modify i (SubscriberStream.push payload) } where
  old j stream hj := by
    rw [List.getElem?_modify, hj]
    by_cases hij : i = j
    · exact ⟨stream.push payload, by simp [hij], .push payload⟩
    · exact ⟨stream, by simp [hij], .keep⟩
  new j hj := by
    rw [List.getElem?_modify, hj]
    exact ⟨rfl, fun stream h => by cases h⟩

theorem moved_poll (i : Nat) (p : Publisher) :
    Moved (lossless p (.poll i)) p (p.poll i) ∧ (p.poll i).loop = p.loop ∧
      (lossless p (.poll i) = false → Orderly p → Short i (p.poll i)) := by
  unfold Publisher.poll
  split
  · rename_i sessionId pushed payload queue yielded hi
    have hshared : lossless p (.poll i) = p.loop.sharedWriter := by simp [lossless, hi]
    rw [hshared]
    have hlt : i < p.streams.length := (List.getElem?_eq_some_iff.mp hi).1
    refine ⟨⟨fun j stream hj => ?_, fun j hj => ?_⟩, rfl, fun hfalse horderly => ?_⟩
    · rw [writesOf_append]
      by_cases hij : i = j
      · subst hij
        cases hi.symm.trans hj
        refine ⟨⟨sessionId, pushed, queue, yielded ++ [payload]⟩, by simp [hlt], ?_⟩
        rw [writesOf_callback]
        exact .item rfl
      · refine ⟨stream, by simp [hij, hj], ?_⟩
        rw [writesOf_callback_ne hij, List.append_nil]
        exact .keep
    · have hij : i ≠ j := by
        rintro rfl
        cases hi.symm.trans hj
      rw [writesOf_append, writesOf_callback_ne hij, List.append_nil]
      refine ⟨rfl, fun stream h => ?_⟩
      rw [List.getElem?_set_ne hij, hj] at h
      cases h
    · refine ⟨⟨sessionId, pushed, queue, yielded ++ [payload]⟩, by simp [hlt], ?_⟩
      have hle := (horderly.sound i _ hi).written.length_le
      rw [writesOf_append, writesOf_callback, hfalse, List.length_append]
      rw [owed, List.length_map] at hle
      simpa using Nat.lt_succ_of_le hle
  · rename_i hnot
    have hempty : lossless p (.poll i) = true := by
      cases hi : p.streams[i]? with
      | none => simp [lossless, hi]
      | some stream =>
        obtain ⟨sessionId, pushed, queue, yielded⟩ := stream
        cases queue with
        | nil => simp [lossless, hi]
        | cons payload queue => exact absurd hi (hnot sessionId pushed payload queue yielded)
    exact ⟨moved_refl _ p, rfl, fun hfalse => by simp [hempty] at hfalse⟩

theorem moved_append (p : Publisher) (loop : LoopState) (sessions : List UInt16) :
    Moved true p { p with loop, streams := p.streams ++ sessions.map SubscriberStream.new } where
  old i stream hi := by
    refine ⟨stream, ?_, .keep⟩
    rw [List.getElem?_append_left (List.getElem?_eq_some_iff.mp hi).1, hi]
  new i hi := by
    refine ⟨rfl, fun stream h => ?_⟩
    rw [List.getElem?_append_right (List.getElem?_eq_none_iff.mp hi), List.getElem?_map] at h
    obtain ⟨s, -, rfl⟩ := Option.map_eq_some_iff.mp h
    exact ⟨s, rfl⟩

def nextLoop (pc : Postcard) (p : Publisher) : Step → LoopState
  | .tick t => (tickPlan pc p.loop t).2
  | _ => p.loop

theorem moved_exec (step : Step) (p : Publisher) (core : LooperCore H) :
    Ends (step.exec env p) core fun o _ => ∀ p', o = .done (.ok p') →
      Moved (lossless p step) p p' ∧ p'.loop = nextLoop env.pc p step := by
  cases step with
  | push i payload =>
    intro p' h
    cases h
    exact ⟨moved_push i payload p, rfl⟩
  | poll i =>
    intro p' h
    cases h
    exact ⟨(moved_poll i p).1, (moved_poll i p).2.1⟩
  | tick t =>
    have htick : Ends (tickStep env p.loop t) core fun o _ => ∀ loop, o = .done (.ok loop) →
        loop = (tickPlan env.pc p.loop t).2 := by
      unfold Ends
      rw [tickStep_eq, unlessExit]
      intro loop h
      split at h
      · cases h
        rfl
      · cases h
      · cases h
    refine Ends.seq htick ?_ fun _ _ _ h => by cases h
    intro result core' hresult
    cases result with
    | error reason => exact fun _ h => by cases h
    | ok loop =>
      intro p' h
      cases h
      exact ⟨moved_append p loop _, hresult loop rfl⟩

/-- Every item finds a shared writer, in every state that the run gets to. -/
def Registered : Publisher → List Step → LooperCore H → Prop
  | _, [], _ => True
  | p, step :: steps, core => lossless p step = true ∧
    ∀ p' core', step.exec env p core = (.done (.ok p'), core') → Registered p' steps core'

theorem kept_runSteps {P : Publisher → Prop} (hP : ∀ shared p p', Moved shared p p' → P p → P p')
    (steps : List Step) (h : P p) :
    Ends (runSteps env p steps) core fun o _ => ∀ p', o = .done (.ok p') → P p' := by
  induction steps generalizing p core with
  | nil =>
    intro p' ho
    cases ho
    exact h
  | cons step steps ih =>
    refine Ends.seq (moved_exec env step p core) ?_ fun _ _ _ h => by cases h
    intro result core' hmoved
    cases result with
    | error reason => exact fun _ h => by cases h
    | ok p₁ => exact ih (hP _ p p₁ (hmoved p₁ rfl).1 h)

theorem short_of_not_lossless {step : Step} (h : lossless p step = false) (horderly : Orderly p)
    (hexec : step.exec env p core = (.done (.ok p'), core')) : ∃ i, Short i p' := by
  cases step with
  | push i payload => cases h
  | tick t => cases h
  | poll i =>
    cases hexec
    exact ⟨i, (moved_poll i p).2.2 h horderly⟩

theorem faithful_iff (steps : List Step) (horderly : Orderly p) (hp : Faithful p) :
    Ends (runSteps env p steps) core fun o _ => ∀ p', o = .done (.ok p') →
      (Faithful p' ↔ Registered env p steps core) := by
  induction steps generalizing p core with
  | nil =>
    intro p' ho
    cases ho
    exact ⟨fun _ => trivial, fun _ => hp⟩
  | cons step steps ih =>
    refine Ends.seq (moved_exec env step p core).result ?_ fun _ _ _ h => by cases h
    rintro result core' ⟨hmoved, hexec⟩
    cases result with
    | error reason => exact fun _ h => by cases h
    | ok p₁ =>
      have hstep := (hmoved p₁ rfl).1
      cases hlossless : lossless p step with
      | true =>
        rw [hlossless] at hstep
        apply (ih (hstep.orderly horderly) (hstep.faithful horderly hp)).mono
        intro o _ hiff p' ho
        rw [hiff p' ho]
        refine ⟨fun h => ⟨hlossless, fun p'' core'' h' => ?_⟩, fun h => h.2 p₁ core' hexec⟩
        cases hexec.symm.trans h'
        exact h
      | false =>
        obtain ⟨i, hshort⟩ := short_of_not_lossless env hlossless horderly hexec
        apply (kept_runSteps env (fun _ _ _ h => h.short) steps hshort).mono
        intro o _ hkept p' ho
        refine ⟨fun h => absurd h (hkept p' ho).not_faithful, fun h => ?_⟩
        exact absurd (hlossless.symm.trans h.1) Bool.false_ne_true

end Steps

section Paths

theorem sharedWriter_nextLoop (pc : Postcard) (step : Step) (h : p.loop.sharedWriter = true) :
    (nextLoop pc p step).sharedWriter = true := by
  cases step with
  | push i payload => exact h
  | poll i => exact h
  | tick t =>
    cases ht : t.pollFails with
    | true =>
      rw [nextLoop, tickPlan, if_pos ht]
      exact h
    | false => rw [nextLoop, (tickPlan_loop pc p.loop ht).1, h, Bool.true_or]

theorem registered_of_sharedWriter (steps : List Step) (h : p.loop.sharedWriter = true) :
    Registered env p steps core := by
  induction steps generalizing p core with
  | nil => trivial
  | cons step steps ih =>
    refine ⟨?_, fun p' core' hexec => ?_⟩
    · cases step with
      | poll i => rw [lossless, h, Bool.true_or]
      | _ => rfl
    · have hmoved := moved_exec env step p core
      unfold Ends at hmoved
      rw [hexec] at hmoved
      apply ih
      rw [(hmoved p' rfl).2]
      exact sharedWriter_nextLoop env.pc step h

/-- The run of a looper on a `ConnectionSource`: its first tick registers it. -/
def Sourced (pc : Postcard) : List Step → Prop
  | .tick t :: _ => t.pollFails = false ∧
    (t.inputs.foldl (collectInput pc) Batch.new).newConnection = some true
  | _ => False

theorem registered_of_sourced {steps : List Step} (h : Sourced env.pc steps) :
    Registered env Publisher.new steps core := by
  cases steps with
  | nil => trivial
  | cons step steps =>
    cases step with
    | push i payload => exact h.elim
    | poll i => exact h.elim
    | tick t =>
      refine ⟨rfl, fun p' core' hexec => ?_⟩
      have hmoved := moved_exec env (.tick t) Publisher.new core
      unfold Ends at hmoved
      rw [hexec] at hmoved
      apply registered_of_sharedWriter
      rw [(hmoved p' rfl).2, nextLoop, (tickPlan_loop env.pc _ h.1).1]
      exact decide_eq_true h.2

/-- The run of a looper that a bridge feeds: no connection is handed over to it. -/
def Bridged (steps : List Step) : Prop :=
  ∀ t, .tick t ∈ steps → .message (.newConnection true) ∉ t.inputs

theorem written_exec (step : Step) (hshared : p.loop.sharedWriter = false) :
    Ends (step.exec env p) core fun o _ => ∀ p', o = .done (.ok p') → p'.written = p.written := by
  cases step with
  | push i payload =>
    intro p' h
    cases h
    rfl
  | poll i =>
    intro p' h
    cases h
    unfold Publisher.poll
    split
    · rw [Publisher.callback, hshared]
      exact List.append_nil _
    · rfl
  | tick t =>
    refine Ends.bind (Ends.mono (Q := fun _ _ => True) trivial ?_)
    intro o core' _
    cases o with
    | panicked => exact fun _ h => by cases h
    | done result =>
      cases result with
      | error reason => exact fun _ h => by cases h
      | ok loop =>
        intro p' h
        cases h
        rfl

theorem written_of_bridged {steps : List Step} (hsteps : Bridged steps)
    (hshared : p.loop.sharedWriter = false) (hbatch : p.loop.batch.newConnection ≠ some true) :
    Ends (runSteps env p steps) core fun o _ => ∀ p', o = .done (.ok p') →
      p'.written = p.written := by
  induction steps generalizing p core with
  | nil =>
    intro p' ho
    cases ho
    rfl
  | cons step steps ih =>
    refine Ends.seq ((moved_exec env step p core).and (written_exec env step hshared)) ?_
      fun _ _ _ h => by cases h
    rintro result core' ⟨hmoved, hwritten⟩
    cases result with
    | error reason => exact fun _ h => by cases h
    | ok p₁ =>
      have hrest : Bridged steps := fun t ht => hsteps t (List.mem_cons_of_mem _ ht)
      have hnext : p₁.loop.sharedWriter = false ∧ p₁.loop.batch.newConnection ≠ some true := by
        rw [(hmoved p₁ rfl).2]
        cases step with
        | push i payload => exact ⟨hshared, hbatch⟩
        | poll i => exact ⟨hshared, hbatch⟩
        | tick t =>
          cases ht : t.pollFails with
          | true =>
            rw [nextLoop, tickPlan, if_pos ht]
            exact ⟨hshared, hbatch⟩
          | false =>
            have hnone := newConnection_foldl env.pc t.inputs hbatch (hsteps t List.mem_cons_self)
            obtain ⟨hloop, hconnection⟩ := tickPlan_loop env.pc p.loop ht
            rw [nextLoop, hloop, hconnection, hshared, Bool.false_or]
            exact ⟨decide_eq_false hnone, by simp⟩
      apply (ih hrest hnext.1 hnext.2).mono
      intro o _ hend p' ho
      rw [hend p' ho, hwritten p₁ rfl]

end Paths

theorem orderly_new : Orderly Publisher.new where
  sound i stream h := by simp [Publisher.new] at h
  others _ _ := rfl

theorem faithful_new : Faithful Publisher.new := fun i stream h => by simp [Publisher.new] at h

/-- What a handler publishes. In every run each stream yields what was pushed, in this
order. All of it is written, with the session of the subscriber, once and in this
order, if and only if each item finds a shared writer; so it is on a looper whose
connection is a `ConnectionSource`. On one that a bridge feeds nothing is written. -/
theorem published_written_iff (steps : List Step) (handler : H) (primaryConnection : PeerScope) :
    Ends (runSteps env Publisher.new steps) (LooperCore.new handler primaryConnection)
      (fun o _ => ∀ p, o = .done (.ok p) →
        (∀ (i : Nat) (stream : SubscriberStream), p.streams[i]? = some stream →
          stream.pushed = stream.yielded ++ stream.queue) ∧
        ((∀ (i : Nat) (stream : SubscriberStream), p.streams[i]? = some stream → writesOf i p.written =
            stream.yielded.map fun payload => (stream.sessionId, payload)) ↔
          Registered env Publisher.new steps (LooperCore.new handler primaryConnection)) ∧
        (Bridged steps → p.written = [])) ∧
    (Sourced env.pc steps →
      Registered env Publisher.new steps (LooperCore.new handler primaryConnection)) := by
  refine ⟨?_, registered_of_sourced env⟩
  have horderly : Ends (runSteps env Publisher.new steps) (LooperCore.new handler primaryConnection)
      fun o _ => ∀ p, o = .done (.ok p) → Orderly p :=
    kept_runSteps env (fun _ _ _ h => h.orderly) steps orderly_new
  have hbridged : Ends (runSteps env Publisher.new steps) (LooperCore.new handler primaryConnection)
      fun o _ => Bridged steps → ∀ p, o = .done (.ok p) → p.written = [] :=
    fun hsteps => written_of_bridged env hsteps rfl (by simp [Publisher.new, Batch.new])
  apply (horderly.and ((faithful_iff env steps orderly_new faithful_new).and hbridged)).mono
  rintro o core ⟨hend, hiff, hbridged⟩ p ho
  exact ⟨fun i stream hi => ((hend p ho).sound i stream hi).queued, hiff p ho,
    fun hsteps => hbridged hsteps p ho⟩

section Samples

def subscriber : List Step :=
  [.tick ⟨[.message (.control (.interestAccepted ⟨List.replicate 16 7, rfl⟩ 8 1))], false,
      fun _ => false⟩,
    .push 0 [3, 2, 0, 5], .poll 0]

def registration : Step := .tick ⟨[.message (.newConnection true)], false, fun _ => false⟩

def published (steps : List Step) : Option (List Bytes × List (UInt16 × Bytes)) :=
  match (runSteps (Env.idle postcard) Publisher.new steps (LooperCore.new () ⟨1⟩)).1 with
  | .done (.ok p) => some (p.streams.flatMap SubscriberStream.yielded, writesOf 0 p.written)
  | _ => none

theorem published_written_sourced :
    published (registration :: subscriber) = some ([[3, 2, 0, 5]], [(8, [3, 2, 0, 5])]) ∧
      Registered (Env.idle postcard) Publisher.new (registration :: subscriber)
        (LooperCore.new () ⟨1⟩) :=
  ⟨by decide +kernel, (published_written_iff (Env.idle postcard) (registration :: subscriber) ()
    ⟨1⟩).2 ⟨rfl, rfl⟩⟩

theorem published_written_bridged :
    Bridged subscriber ∧ published subscriber = some ([[3, 2, 0, 5]], []) := by
  refine ⟨fun t ht => ?_, by decide +kernel⟩
  simp only [subscriber, List.mem_cons, Step.tick.injEq, reduceCtorEq, List.not_mem_nil, or_false] at ht
  simp [ht]

end Samples

end Pane.Publishing
