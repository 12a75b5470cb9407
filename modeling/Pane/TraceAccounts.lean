import Pane.PaneNetwork

namespace Pane.TraceAccounts

open Pane.HashTable Pane.Messages Pane.Correlator Pane.Callbacks Pane.LooperState Pane.CoreRequest
open Pane.RequestLedger Pane.CoreSteps Pane.Server Pane.ConnectionSource Pane.WireSystem
open Pane.PaneNetwork

/-- A frame that a pane sends on a session goes back to something in its trace:
a request to its token, a reply to a port that was opened and answered. -/
def Due (trace : List Event) (s : UInt16) : ServiceFrame → Prop
  | .request t _ => .installed t s ∈ trace
  | .reply t v => ∃ port inner, .portOpened port s t inner ∈ trace ∧ .portAnswered port v ∈ trace
  | _ => True

def Accounted (pc : Postcard) (handled : List LooperMessage) (trace : List Event) : Event → Prop
  | .sent s bytes => s = 0 ∨ ∃ frame, pc.frameToAllocvec frame = some bytes ∧ Due trace s frame
  | .portOpened _ s t inner => Handed pc handled s (.request t inner)
  | .called (.onReply t v) => ∃ s, Handed pc handled s (.reply t v)
  | _ => True

theorem Due.mono {trace trace' : List Event} {s : UInt16} {frame : ServiceFrame}
    (h : Due trace s frame) (htrace : trace ⊆ trace') : Due trace' s frame := by
  cases frame with
  | request t inner => exact htrace h
  | reply t v =>
    obtain ⟨port, inner, hopened, hanswered⟩ := h
    exact ⟨port, inner, htrace hopened, htrace hanswered⟩
  | _ => trivial

theorem Handed.mono {pc : Postcard} {handled handled' : List LooperMessage} {s : UInt16}
    {frame : ServiceFrame} (h : Handed pc handled s frame) (hsub : handled ⊆ handled') :
    Handed pc handled' s frame := by
  obtain ⟨payload, hmem, hframe⟩ := h
  exact ⟨payload, hsub hmem, hframe⟩

theorem Accounted.mono {pc : Postcard} {handled handled' : List LooperMessage}
    {trace trace' : List Event} {e : Event} (h : Accounted pc handled trace e)
    (hhandled : handled ⊆ handled') (htrace : trace ⊆ trace') : Accounted pc handled' trace' e := by
  cases e with
  | sent s bytes =>
    obtain hzero | ⟨frame, hbytes, hdue⟩ := h
    · exact .inl hzero
    · exact .inr ⟨frame, hbytes, hdue.mono htrace⟩
  | portOpened port s t inner => exact Handed.mono h hhandled
  | called call =>
    cases call with
    | onReply t v =>
      obtain ⟨s, hs⟩ := h
      exact ⟨s, Handed.mono hs hhandled⟩
    | _ => trivial
  | _ => trivial

section Cores

variable {α : Type} {env : Env α} {handled : List LooperMessage} {core core' : LooperCore α}

/-- The trace of a pane is in order: all of it is accounted for, open ports were
opened, a port is named after its place in the trace and a token is issued once. -/
structure Audited (pc : Postcard) (handled : List LooperMessage) (core : LooperCore α) : Prop where
  events : ∀ e ∈ core.trace, Accounted pc handled core.trace e
  ports : ∀ port s t, core.ports.lookup port = some (s, t) →
    ∃ inner, .portOpened port s t inner ∈ core.trace
  numbered : ∀ (i : Nat) port s t inner, core.trace[i]? = some (.portOpened port s t inner) → i = port
  issued : ∀ t s, .installed t s ∈ core.trace → t < nextToken core
  once : ∀ t s s', .installed t s ∈ core.trace → .installed t s' ∈ core.trace → s = s'

theorem audited_new (pc : Postcard) (handler : α) (peer : PeerScope) :
    Audited pc [] (LooperCore.new handler peer) where
  events _ he := nomatch he
  ports _ _ _ h := nomatch h
  numbered _ _ _ _ _ h := nomatch h
  issued _ _ h := nomatch h
  once _ _ _ h := nomatch h

theorem Audited.mono {pc : Postcard} {handled' : List LooperMessage} (h : Audited pc handled core)
    (hsub : handled ⊆ handled') : Audited pc handled' core :=
  ⟨fun e he => (h.events e he).mono hsub (List.Subset.refl _), h.ports, h.numbered, h.issued, h.once⟩

theorem Audited.extend {pc : Postcard} (h : Audited pc handled core) {es : List Event}
    (htrace : core'.trace = core.trace ++ es) (hnext : nextToken core ≤ nextToken core')
    (hevents : ∀ e ∈ es, Accounted pc handled core'.trace e)
    (hports : ∀ port s t, core'.ports.lookup port = some (s, t) →
      core.ports.lookup port = some (s, t) ∨ ∃ inner, .portOpened port s t inner ∈ es)
    (hnumbered : ∀ (i : Nat) port s t inner, es[i]? = some (.portOpened port s t inner) →
      core.trace.length + i = port)
    (hissued : ∀ t s, .installed t s ∈ es → nextToken core ≤ t ∧ t < nextToken core')
    (honce : ∀ t s s', .installed t s ∈ es → .installed t s' ∈ es → s = s') :
    Audited pc handled core' := by
  have hsub : core.trace ⊆ core'.trace := htrace ▸ List.subset_append_left _ _
  -- a token in the old part is below those of the new part
  have hfresh : ∀ t s s', .installed t s ∈ core.trace → .installed t s' ∉ es := fun t s s' hs hs' =>
    absurd (h.issued t s hs) (Nat.not_lt.mpr (hissued t s' hs').1)
  refine ⟨?_, ?_, ?_, ?_, ?_⟩
  · intro e he
    obtain he | he := List.mem_append.mp (htrace ▸ he)
    · exact (h.events e he).mono (List.Subset.refl _) hsub
    · exact hevents e he
  · intro port s t hport
    obtain hport | ⟨inner, hopened⟩ := hports port s t hport
    · obtain ⟨inner, hopened⟩ := h.ports port s t hport
      exact ⟨inner, hsub hopened⟩
    · exact ⟨inner, htrace ▸ List.mem_append_right _ hopened⟩
  · intro i port s t inner hi
    rw [htrace] at hi
    by_cases hlt : i < core.trace.length
    · rw [List.getElem?_append_left hlt] at hi
      exact h.numbered i port s t inner hi
    · rw [List.getElem?_append_right (Nat.le_of_not_lt hlt)] at hi
      have := hnumbered _ port s t inner hi
      omega
  · intro t s hs
    obtain hs | hs := List.mem_append.mp (htrace ▸ hs)
    · exact Nat.lt_of_lt_of_le (h.issued t s hs) hnext
    · exact (hissued t s hs).2
  · intro t s s' hs hs'
    obtain hs | hs := List.mem_append.mp (htrace ▸ hs)
    · obtain hs' | hs' := List.mem_append.mp (htrace ▸ hs')
      · exact h.once t s s' hs hs'
      · exact absurd hs' (hfresh t s s' hs)
    · obtain hs' | hs' := List.mem_append.mp (htrace ▸ hs')
      · exact absurd hs (hfresh t s' s hs')
      · exact honce t s s' hs hs'

theorem accounted_offer {pc : Postcard} {trace : List Event} {s : UInt16} {bytes : Bytes}
    {accepted : Bool} (h : s = 0 ∨ ∃ frame, pc.frameToAllocvec frame = some bytes ∧ Due trace s frame) :
    Accounted pc handled trace (offer accepted s bytes) := by
  cases accepted with
  | true => exact h
  | false => trivial

theorem accounted_note {trace : List Event} {e : Event} (h : IsNote (Handed env.pc handled) e) :
    Accounted env.pc handled trace e := by
  cases e with
  | sent s bytes => cases h
  | portOpened port s t inner => cases h
  | called call =>
    cases call with
    | onReply t v => exact h
    | _ => trivial
  | _ => trivial

def isPlain : Event → Bool
  | .portOpened .. => false
  | .installed .. => false
  | _ => true

@[simp] theorem isPlain_offer (accepted : Bool) (s : UInt16) (bytes : Bytes) :
    isPlain (offer accepted s bytes) = true := by
  cases accepted <;> rfl

theorem isPlain_note {granted : UInt16 → ServiceFrame → Prop} {e : Event} (h : IsNote granted e) :
    isPlain e = true := by
  cases e with
  | portOpened port s t inner => cases h
  | installed t s => cases h
  | _ => rfl

theorem Audited.append {pc : Postcard} (h : Audited pc handled core) {es : List Event}
    (htrace : core'.trace = core.trace ++ es) (hnext : nextToken core ≤ nextToken core')
    (hports : ∀ port s t, core'.ports.lookup port = some (s, t) → core.ports.lookup port = some (s, t))
    (hevents : ∀ e ∈ es, isPlain e = true ∧ Accounted pc handled core'.trace e) :
    Audited pc handled core' := by
  refine h.extend htrace hnext (fun e he => (hevents e he).2)
    (fun port s t hport => .inl (hports port s t hport)) ?_ ?_ ?_
  · intro i port s t inner hi
    cases (hevents _ (List.mem_of_getElem? hi)).1
  · intro t s hs
    cases (hevents _ hs).1
  · intro t s s' hs
    cases (hevents _ hs).1

theorem Audited.close {pc : Postcard} (h : Audited pc handled core) {es : List Event} {port : Nat}
    (htrace : core'.trace = core.trace ++ es) (hnext : nextToken core ≤ nextToken core')
    (hports : core'.ports = core.ports.erase port)
    (hevents : ∀ e ∈ es, isPlain e = true ∧ Accounted pc handled core'.trace e) :
    Audited pc handled core' := by
  refine h.append htrace hnext (fun port' s t hport => ?_) hevents
  rw [hports] at hport
  exact (lookup_of_lookup_erase hport).2

theorem audited_step (h : Audited env.pc handled core)
    (hstep : Step env (Handed env.pc handled) core core') : Audited env.pc handled core' := by
  have hnext := hstep.next
  cases hstep.change with
  | noted es hes htrace hports =>
    refine h.append htrace hnext (fun port s t hport => hports ▸ hport) fun e he => ?_
    exact ⟨isPlain_note (hes e he), accounted_note (hes e he)⟩
  | wrote accepted service payload hplain htrace hports =>
    refine h.append htrace hnext (fun port s t hport => hports ▸ hport) ?_
    refine List.forall_mem_singleton.mpr ⟨isPlain_offer _ _ _, accounted_offer ?_⟩
    obtain hzero | ⟨inner, hbytes⟩ := hplain
    · exact .inl hzero
    · exact .inr ⟨.notification inner, hbytes, trivial⟩
  | installed s t hnew hlt htrace hports =>
    refine h.extend htrace hnext (List.forall_mem_singleton.mpr trivial)
      (fun port s t hport => .inl (hports ▸ hport)) ?_ ?_ ?_
    · intro i port s t inner hi
      cases List.mem_singleton.mp (List.mem_of_getElem? hi)
    · intro t' s' he
      cases List.mem_singleton.mp he
      exact ⟨hnew, hlt⟩
    · intro t' s' s'' he he'
      cases List.mem_singleton.mp he
      cases List.mem_singleton.mp he'
      rfl
  | requested accepted s t inner outer hnew hlt houter htrace hports =>
    have hinstalled : ∀ t' s', .installed t' s' ∈ [.installed t s, offer accepted s outer] →
        t' = t ∧ s' = s := by
      intro t' s' he
      cases accepted <;> simpa [offer] using he
    have hsent : Due core'.trace s (.request t inner) :=
      htrace ▸ List.mem_append_right _ List.mem_cons_self
    refine h.extend htrace hnext ?_ (fun port s t hport => .inl (hports ▸ hport)) ?_ ?_ ?_
    · refine List.forall_mem_cons.mpr ⟨trivial, List.forall_mem_singleton.mpr ?_⟩
      exact accounted_offer (.inr ⟨.request t inner, houter, hsent⟩)
    · intro i port s' t' inner' hi
      have hmem := List.mem_of_getElem? hi
      cases accepted <;> simp [offer] at hmem
    · intro t' s' he
      obtain ⟨rfl, rfl⟩ := hinstalled t' s' he
      exact ⟨hnew, hlt⟩
    · intro t' s' s'' he he'
      rw [(hinstalled t' s' he).2, (hinstalled t' s'' he').2]
  | rejected accepted s t inner bytes hgranted hbytes htrace hports =>
    refine h.append htrace hnext (fun port s t hport => hports ▸ hport) ?_
    refine List.forall_mem_cons.mpr ⟨⟨rfl, trivial⟩, List.forall_mem_singleton.mpr ?_⟩
    exact ⟨isPlain_offer _ _ _, accounted_offer (.inr ⟨.failed t, hbytes, trivial⟩)⟩
  | opened s t inner hgranted htrace hports =>
    refine h.extend htrace hnext ?_ ?_ ?_ ?_ ?_
    · exact List.forall_mem_cons.mpr ⟨trivial, List.forall_mem_singleton.mpr hgranted⟩
    · intro port s' t' hport
      rw [hports, lookup_insert] at hport
      split at hport
      · next hname =>
        cases hport
        exact .inr ⟨inner, by simp [hname]⟩
      · exact .inl hport
    · intro i port s' t' inner' hi
      cases i with
      | zero => cases hi
      | succ i =>
        cases i with
        | zero =>
          cases hi
          rfl
        | succ i => cases hi
    · intro t' s' he
      simp at he
    · intro t' s' s'' he
      simp at he
  | answered accepted port s t value bytes hport hbytes htrace hports =>
    obtain ⟨inner, hopened⟩ := h.ports port s t hport
    have hdue : Due core'.trace s (.reply t value) :=
      ⟨port, inner, htrace ▸ List.mem_append_left _ hopened,
        htrace ▸ List.mem_append_right _ List.mem_cons_self⟩
    refine h.close htrace hnext hports (List.forall_mem_cons.mpr ⟨⟨rfl, trivial⟩, ?_⟩)
    refine List.forall_mem_singleton.mpr ⟨isPlain_offer _ _ _, ?_⟩
    exact accounted_offer (.inr ⟨.reply t value, hbytes, hdue⟩)
  | dropped accepted port s t bytes hport hbytes htrace hports =>
    refine h.close htrace hnext hports (List.forall_mem_singleton.mpr ⟨isPlain_offer _ _ _, ?_⟩)
    exact accounted_offer (.inr ⟨.failed t, hbytes, trivial⟩)
  | lost port s t hport htrace hports =>
    exact h.close htrace hnext hports (List.forall_mem_singleton.mpr ⟨rfl, trivial⟩)

theorem audited_steps (h : Audited env.pc handled core)
    (hsteps : Steps env (Handed env.pc handled) core core') : Audited env.pc handled core' := by
  induction hsteps with
  | refl => exact h
  | tail _ hstep ih => exact audited_step ih hstep

end Cores

section Nodes

variable {Q α : Type} {env : Env α} {node node' : Node α} {w w' : Wire Q} {deed : Deed}

/-- A pane that uses the library. All that its writer takes comes from its looper,
apart from control messages and notifications, and its looper handles what the
reader has delivered. -/
structure Honest (env : Env α) (node : Node α) (w : Wire Q) : Prop where
  audited : Audited env.pc node.handled node.core
  frames : ∀ f, f ∈ w.taken ∨ f ∈ node.outbox →
    isPosted env.pc f = true ∨ .sent f.1 f.2 ∈ node.core.trace
  drawn : ∀ m, m ∈ node.waiting ∨ m ∈ node.handled → m ∈ w.delivered

theorem honest_new {net : Setting Q} (handler : α) (peer : PeerScope) (conn : ConnectionId) :
    Honest env (Node.new handler peer) (Wire.new net conn) where
  audited := audited_new env.pc handler peer
  frames f hf := by
    obtain hf | hf := hf <;> cases hf
  drawn m hm := by
    obtain hm | hm := hm <;> cases hm

theorem frames_advance {granted : UInt16 → ServiceFrame → Prop} {core : LooperCore α}
    (h : ∀ f, f ∈ w.taken ∨ f ∈ node.outbox →
      isPosted env.pc f = true ∨ .sent f.1 f.2 ∈ node.core.trace)
    (hsteps : Steps env granted node.core core) (f : WriteMessage)
    (hf : f ∈ w.taken ∨ f ∈ node.outbox ++ (since node.core core).filterMap sentFrame) :
    isPosted env.pc f = true ∨ .sent f.1 f.2 ∈ core.trace := by
  obtain ⟨es, hes⟩ := grows_steps hsteps
  have hold : f ∈ w.taken ∨ f ∈ node.outbox → isPosted env.pc f = true ∨ .sent f.1 f.2 ∈ core.trace :=
    fun hf => (h f hf).imp_right fun hsent => hes ▸ List.mem_append_left es hsent
  obtain hf | hf := hf
  · exact hold (.inl hf)
  · obtain hf | hf := List.mem_append.mp hf
    · exact hold (.inr hf)
    · obtain ⟨e, he, hsent⟩ := List.mem_filterMap.mp hf
      rw [since, hes, List.drop_left] at he
      cases e with
      | sent service payload =>
        cases hsent
        exact .inr (hes ▸ List.mem_append_right _ he)
      | _ => cases hsent

theorem drawn_dispatch (h : ∀ m, m ∈ node.waiting ∨ m ∈ node.handled → m ∈ w.delivered) {i : Nat}
    {way : Way} {msg : LooperMessage} (hmsg : node.waiting[i]? = some msg) (m : LooperMessage)
    (hm : m ∈ (node.dispatch env i way msg).waiting ∨ m ∈ (node.dispatch env i way msg).handled) :
    m ∈ w.delivered := by
  rw [waiting_dispatch, handled_dispatch] at hm
  obtain hm | hm := hm
  · exact h m (.inl (List.mem_of_mem_eraseIdx hm))
  · obtain hm | hm := List.mem_append.mp hm
    · exact h m (.inr hm)
    · rw [List.mem_singleton.mp hm]
      exact h msg (.inl (List.mem_of_getElem? hmsg))

theorem honest_moved (hframes : env.pc.FrameRoundTrip) (h : Moved env node w deed node' w')
    (hnode : Honest env node w) : Honest env node' w' := by
  have hsteps := steps_moved hframes h
  have haudited : node.handled ⊆ node'.handled → Audited env.pc node'.handled node'.core :=
    fun hsub => audited_steps (hnode.audited.mono hsub) hsteps
  cases h with
  | wire action more w' hdelivered htaken =>
    refine ⟨hnode.audited, htaken ▸ hnode.frames, fun m hm => ?_⟩
    rw [hdelivered, List.mem_append]
    obtain hm | hm := hm
    · obtain hm | hm := List.mem_append.mp hm
      · exact .inl (hnode.drawn m (.inl hm))
      · exact .inr hm
    · exact .inl (hnode.drawn m (.inr hm))
  | take i frame w' hframe hdelivered htaken =>
    refine ⟨hnode.audited, fun f hf => ?_, hdelivered ▸ hnode.drawn⟩
    rw [htaken, List.mem_append, List.mem_singleton] at hf
    obtain (hf | rfl) | hf := hf
    · exact hnode.frames f (.inl hf)
    · exact hnode.frames f (.inr (List.mem_of_getElem? hframe))
    · exact hnode.frames f (.inr (List.mem_of_mem_eraseIdx hf))
  | dispatch i way msg hmsg =>
    refine ⟨haudited ?_, ?_, drawn_dispatch hnode.drawn hmsg⟩
    · rw [handled_dispatch]
      exact List.subset_append_left _ _
    · unfold Node.dispatch at hsteps ⊢
      split at hsteps
      · exact hnode.frames
      · rw [core_exec] at hsteps
        rw [outbox_exec, core_exec]
        exact frames_advance hnode.frames hsteps
  | act act hlocal =>
    rw [core_exec] at hsteps
    refine ⟨haudited ?_, ?_, ?_⟩
    · rw [handled_exec]
      exact List.Subset.refl _
    · rw [outbox_exec, core_exec]
      exact frames_advance hnode.frames hsteps
    · rw [waiting_exec, handled_exec]
      exact hnode.drawn
  | settle effect hport =>
    exact ⟨haudited (List.Subset.refl _), frames_advance hnode.frames hsteps, hnode.drawn⟩
  | post frame hposted =>
    refine ⟨hnode.audited, fun f hf => ?_, hnode.drawn⟩
    rw [List.mem_append, List.mem_singleton] at hf
    obtain hf | hf | rfl := hf
    · exact hnode.frames f (.inl hf)
    · exact hnode.frames f (.inr hf)
    · exact .inl hposted

theorem sent_of_taken (h : Honest env node w) (hframes : env.pc.FrameRoundTrip) {s : UInt16}
    {payload : Bytes} {frame : ServiceFrame} (htaken : (s, payload) ∈ w.taken) (hs : s ≠ 0)
    (hframe : env.pc.frameFromBytes payload = some frame)
    (hplain : ∀ inner, frame ≠ .notification inner) :
    .sent s payload ∈ node.core.trace ∧ env.pc.frameToAllocvec frame = some payload ∧
      Due node.core.trace s frame := by
  obtain hposted | hsent := h.frames (s, payload) (.inl htaken)
  · rw [isPosted, if_neg hs, hframe] at hposted
    cases frame with
    | notification inner => exact absurd rfl (hplain inner)
    | _ => cases hposted
  · obtain hzero | ⟨frame', hbytes, hdue⟩ := h.audited.events _ hsent
    · exact absurd hzero hs
    · obtain ⟨bytes, hto, hfrom⟩ := hframes frame'
      cases hbytes.symm.trans hto
      cases hfrom.symm.trans hframe
      exact ⟨hsent, hto, hdue⟩

end Nodes

end Pane.TraceAccounts
