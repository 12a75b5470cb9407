import Pane.HandshakeRuns

namespace Pane.HandshakeProgress

open Pane.Messages Pane.Framing Pane.Streams Pane.WireSystem Pane.Handshake Pane.Machines
open Pane.Accepting Pane.HandshakeRuns

variable {site : Site} {i : Nat} {line line' : Line}

/-- Nothing goes wrong with the transport of line `i`; the others do as they like. -/
def undisturbed (i : Nat) (_ : State) : Accepting.Label → Prop
  | .handshake j (.clientFails _) => j ≠ i
  | .handshake j (.acceptFails _) => j ≠ i
  | _ => True

/-- The two messages of a handshake can be written, and are within its limit. -/
structure Writable (site : Site) (hello : Handshake.Hello) : Prop where
  greets : ∃ bytes, site.cbor.helloIntoWriter hello = .ok bytes ∧
    2 + bytes.length ≤ handshakeMaxMessageSize.toNat
  answers : ∃ bytes, site.cbor.decisionIntoWriter (decision hello) = .ok bytes ∧
    2 + bytes.length ≤ handshakeMaxMessageSize.toNat

structure Unharmed (line : Line) : Prop where
  client : ∀ e, line.client ≠ .failed (.transport e)
  accept : line.ended = none ∨ line.ended = some (.failed (.rejected .versionMismatch))

variable {hello : Handshake.Hello}

theorem unharmed_took (hsane : Sane site) (hhello : site.hellos i = some hello)
    (hwritable : Writable site hello) (h : Sound site i line) (hline : Unharmed line)
    {next next' : Nat} {step : Step} {x : State} (hok : undisturbed i x (.handshake i step))
    (htook : Took site i line next step line' next') : Unharmed line' := by
  obtain ⟨hbytes, hintoWriter, hsmall⟩ := hwritable.greets
  obtain ⟨dbytes, dintoWriter, dsmall⟩ := hwritable.answers
  cases htook with
  | speechless hello' text hclient hhello' hcbor =>
    cases hhello.symm.trans hhello'
    cases hintoWriter.symm.trans hcbor
  | hello hello' bytes hclient hhello' hcbor hidle => exact ⟨fun e he => (by cases he), hline.accept⟩
  | decision frame down hclient hread =>
    obtain ⟨d, rest, bytes, -, -, -, -, -, htold⟩ | ⟨e, d, bytes, hd, hcbor, hlarge, -, -⟩ :=
      decision_read hsane h hclient hread
    · refine ⟨fun e he => ?_, hline.accept⟩
      rw [htold] at he
      cases d <;> cases he
    · rw [h.decision_eq hhello hd] at hcbor
      cases dintoWriter.symm.trans hcbor
      exact absurd hlarge (Nat.not_lt.mpr dsmall)
  | clientFails error e hclient => exact absurd rfl hok
  | arrive bytes hhello' => cases hhello.symm.trans hhello'
  | unread frame up e hopen haccept hread hunread =>
    obtain ⟨hreads, -⟩ | ⟨e', bytes, hcbor, hlarge, -⟩ := hello_read hsane h hopen haccept hhello hread
    · cases hreads.symm.trans hunread
    · cases hintoWriter.symm.trans hcbor
      exact absurd hlarge (Nat.not_lt.mpr hsmall)
  | rejectPanics hello' text haccept hversion hcbor =>
    rw [← decision_err hversion, h.heard hhello (congrArg Accept.hello haccept),
      decision_received] at hcbor
    cases dintoWriter.symm.trans hcbor
  | welcomePanics hello' connId text haccept hcbor =>
    have hversion : Checked (.welcoming hello' connId) := haccept ▸ h.checked
    rw [← decision_ok hversion, h.heard hhello (congrArg Accept.hello haccept),
      decision_received] at hcbor
    cases dintoWriter.symm.trans hcbor
  | refuse hello' haccept => exact ⟨hline.client, .inr rfl⟩
  | acceptFails error e => exact absurd rfl hok
  | _ => exact { hline with }

theorem unharmed_reachable (hsane : Sane site) (hhello : site.hellos i = some hello)
    (hwritable : Writable site hello) {x : State}
    (hx : (machine site).Reachable (undisturbed i) x) : Unharmed (x.lines i) := by
  induction hx with
  | start hx =>
    cases hx
    exact ⟨fun e he => (by cases he), .inl rfl⟩
  | @step x y label hx hok hstep ih =>
    have hsound := sound_reachable hsane hx i
    obtain ⟨j, step, line, next, rfl, htook, rfl⟩ | ⟨j, action, limit, w, events, -, -, -, rfl⟩ |
      ⟨order, -, hact⟩ := step_cases hstep
    · by_cases hj : i = j
      · subst hj
        simp only [Function.update_self]
        exact unharmed_took hsane hhello hwritable hsound ih hok htook
      · simp only [Function.update_of_ne hj]
        exact ih
    · by_cases hj : i = j
      · subst hj
        simp only [Function.update_self]
        exact { ih with }
      · simp only [Function.update_of_ne hj]
        exact ih
    · rw [(act_eq hact).1]
      exact ih

def own : Step → Bool
  | .clientFails _ => false
  | .acceptFails _ => false
  | .arrive _ => false
  | _ => true

/-- Neither side of line `i` has anything to do, and no byte is on its way. -/
structure Stuck (site : Site) (i : Nat) (x : State) : Prop where
  steps : ∀ step, own step = true → step.run site i (x.lines i) x.nextConnId = none
  up : (x.lines i).wire.up.unsent = []
  down : (x.lines i).wire.down.unsent = []

variable {x : State}

theorem Stuck.starting (hstuck : Stuck site i x) (hhello : site.hellos i = some hello)
    (hwritable : Writable site hello) : (x.lines i).client ≠ .starting := by
  intro hclient
  obtain ⟨bytes, hbytes, -⟩ := hwritable.greets
  have hrun := hstuck.steps .sendHello rfl
  simp [Step.run, hclient, hhello, hbytes, writeControl, byteStream, FrameCodec.writeFrame, hstuck.up]
    at hrun

theorem Stuck.undecided (hstuck : Stuck site i x) (hhello : site.hellos i = some hello)
    (hwritable : Writable site hello) (h : Sound site i (x.lines i))
    (hclient : (x.lines i).client = .waiting) : (x.lines i).accept.decision = none := by
  cases hd : (x.lines i).accept.decision with
  | none => rfl
  | some d =>
    obtain ⟨bytes, rest, hbytes, hdown⟩ := h.unread hd (.inr hclient)
    rw [h.decision_eq hhello hd] at hbytes
    obtain ⟨bytes', hbytes', hsmall⟩ := hwritable.answers
    cases hbytes'.symm.trans hbytes
    rw [hstuck.down, List.append_nil] at hdown
    have hread : readFrom (FrameCodec.new handshakeMaxMessageSize) (x.lines i).wire.down = _ :=
      readFrom_whole (knows_new _) hsmall hdown
    have hrun := hstuck.steps .readDecision rfl
    simp [Step.run, hclient, hstuck.up, hread] at hrun

theorem Stuck.heard (hstuck : Stuck site i x) (hhello : site.hellos i = some hello)
    (hsane : Sane site) (hwritable : Writable site hello) (h : Sound site i (x.lines i))
    (hopen : (x.lines i).ended = none) (hclient : (x.lines i).client = .waiting) :
    (x.lines i).accept ≠ .reading := by
  intro haccept
  obtain ⟨hwaits, -⟩ | ⟨bytes, hbytes, hup⟩ := h.asking hhello hopen haccept
  · exact hwaits hclient
  obtain ⟨bytes', hbytes', hsmall⟩ := hwritable.greets
  cases hbytes'.symm.trans hbytes
  rw [hstuck.up, List.append_nil, ← List.append_nil (frameBytes 0 bytes)] at hup
  have hread : readFrom (FrameCodec.newPermissive handshakeMaxMessageSize) (x.lines i).wire.up = _ :=
    readFrom_whole (knows_newPermissive _) hsmall hup
  have hrun := hstuck.steps .readHello rfl
  simp [Step.run, hopen, haccept, hread, readHello_frame hsane.roundTrip hbytes] at hrun

theorem Stuck.answered (hstuck : Stuck site i x) (hhello : site.hellos i = some hello)
    (hwritable : Writable site hello) (h : Sound site i (x.lines i))
    (hopen : (x.lines i).ended = none) :
    (x.lines i).accept = .reading ∨ (x.lines i).accept.decision ≠ none := by
  obtain ⟨bytes, hbytes, -⟩ := hwritable.answers
  cases haccept : (x.lines i).accept with
  | reading => exact .inl rfl
  | rejecting hello' => exact .inr (by simp [Accept.decision])
  | serving hello' connId => exact .inr (by simp [Accept.decision])
  | checking hello' =>
    have hheard := h.heard hhello (congrArg Accept.hello haccept)
    rw [← decision_received, ← hheard] at hbytes
    by_cases hversion : hello'.version = 1
    · have hrun := hstuck.steps .allocate rfl
      simp [Step.run, hopen, haccept, hversion] at hrun
    · rw [decision_err hversion] at hbytes
      have hrun := hstuck.steps .reject rfl
      simp [Step.run, hopen, haccept, hversion, Line.answer, hbytes, writeControl, byteStream,
        FrameCodec.writeFrame, hstuck.down] at hrun
  | welcoming hello' connId =>
    have hheard := h.heard hhello (congrArg Accept.hello haccept)
    have hversion : Checked (.welcoming hello' connId) := haccept ▸ h.checked
    rw [← decision_received, ← hheard, decision_ok hversion] at hbytes
    have hrun := hstuck.steps .welcome rfl
    simp [Step.run, hopen, haccept, Line.answer, hbytes, writeControl, byteStream,
      FrameCodec.writeFrame, hstuck.down] at hrun

/-- If nothing goes wrong with the transport and both messages can be written within
the limit of a handshake, neither side fails for another reason than the version, and
the handshake does not get stuck: when neither side has anything left to do, the
client knows the decision. Nothing that happens to other connections changes this. -/
theorem handshake_completes (hsane : Sane site) (hhello : site.hellos i = some hello)
    (hwritable : Writable site hello) (hx : (machine site).Reachable (undisturbed i) x) :
    (∀ e, (x.lines i).client ≠ .failed (.transport e)) ∧
    ((x.lines i).ended = none ∨
      hello.version ≠ 1 ∧ (x.lines i).ended = some (.failed (.rejected .versionMismatch))) ∧
    (Stuck site i x → (x.lines i).client = told (decision hello)) := by
  have h := sound_reachable hsane hx i
  have hline := unharmed_reachable hsane hhello hwritable hx
  refine ⟨hline.client, ?_, fun hstuck => ?_⟩
  · obtain hopen | hended := hline.accept
    · exact .inl hopen
    · obtain ⟨-, hello', haccept⟩ := h.ended hended
      have hversion : Checked (.rejecting hello') := haccept ▸ h.checked
      rw [h.heard hhello (congrArg Accept.hello haccept)] at hversion
      exact .inr ⟨hversion, hended⟩
  · cases hclient : (x.lines i).client with
    | starting => exact absurd hclient (hstuck.starting hhello hwritable)
    | waiting =>
      have hundecided := hstuck.undecided hhello hwritable h hclient
      have hopen : (x.lines i).ended = none := by
        obtain hopen | hended := hline.accept
        · exact hopen
        · obtain ⟨-, hello', haccept⟩ := h.ended hended
          rw [haccept] at hundecided
          cases hundecided
      obtain hreading | hanswered := hstuck.answered hhello hwritable h hopen
      · exact absurd hreading (hstuck.heard hhello hsane hwritable h hopen hclient)
      · exact absurd hundecided hanswered
    | connected w =>
      rw [← h.decision_eq hhello (h.connected hclient)]
      rfl
    | failed e =>
      cases e with
      | transport e => exact absurd hclient (hline.client e)
      | rejected r =>
        rw [← h.decision_eq hhello (h.refused hclient)]
        rfl

theorem stuck_visited : Stuck visit 0 visited := by
  refine ⟨fun step hown => ?_, by decide +kernel, by decide +kernel⟩
  cases step with
  | clientFails error => cases hown
  | acceptFails error => cases hown
  | arrive bytes => cases hown
  | _ => decide +kernel

theorem handshake_completes_visit :
    Stuck visit 0 visited ∧ (visited.lines 0).client = told (decision visitor) := by
  have hx : (machine visit).Reachable (undisturbed 0) visited :=
    Machine.Reachable.run (by simp [visits, undisturbed]) (.start rfl) (Option.some_get _).symm
  have hwritable : Writable visit visitor := ⟨⟨_, rfl, by decide⟩, ⟨_, rfl, by decide⟩⟩
  exact ⟨stuck_visited, (handshake_completes (sane_of_visitCbor rfl) rfl hwritable hx).2.2 stuck_visited⟩

end Pane.HandshakeProgress
