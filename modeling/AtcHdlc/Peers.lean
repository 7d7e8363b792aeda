import AtcHdlc.Lib.Convergence
import AtcHdlc.World

/-! A station as a peer of a connection. `Reflects` says which peer a context stands for, `Means` which
message a frame is, and `simulates` that a station makes of a frame what its peer makes of the message. -/

namespace AtcHdlc

open DataLink

section Session

variable {st : Station} {w : TxWindow}

/-- From one trace to a later one without new payloads. -/
structure Onward (l r : List Obs) : Prop where
  resets : resetCount l ≤ resetCount r
  same : resetCount r = resetCount l →
    (session r).sent = (session l).sent ∧ (session l).acked ≤ (session r).acked
  anew : resetCount l < resetCount r → (session r).sent = []

theorem resetCount_neutral (trace : List Obs) {os : List Obs} (h : ∀ o ∈ os, Neutral o) :
    resetCount (trace ++ os) = resetCount trace := by
  have hnone : os.count .reset = 0 := List.count_eq_zero.mpr fun hmem => h _ hmem
  rw [resetCount, List.count_append, hnone, Nat.add_zero]
  rfl

theorem Onward.neutral {l r os : List Obs} (h : Onward l r) (hos : ∀ o ∈ os, Neutral o) :
    Onward l (r ++ os) := by
  refine ⟨?_, ?_, ?_⟩
  · rw [resetCount_neutral r hos]
    exact h.resets
  · rw [resetCount_neutral r hos, session_neutral r hos]
    exact h.same
  · rw [resetCount_neutral r hos, session_neutral r hos]
    exact h.anew

theorem Onward.quiet {l : List Obs} {s s' : Ctx} (h : Onward l s.trace) (hq : Quiet s s') :
    Onward l s'.trace := by
  obtain ⟨os, hos, htrace⟩ := hq.trace
  rw [htrace]
  exact h.neutral hos

theorem Onward.reset {l r : List Obs} (h : Onward l r) : Onward l (r ++ [.reset]) := by
  have hresets := h.resets
  have hcount := resetCount_reset r
  refine ⟨by omega, fun heq => by omega, fun _ => ?_⟩
  rw [session_reset]
  rfl

theorem Onward.acked {l r : List Obs} (h : Onward l r) (nr : Nat) : Onward l (r ++ [.acked nr]) := by
  have hcount : resetCount (r ++ [.acked nr]) = resetCount r := by
    rw [resetCount, List.count_append]
    rfl
  have hsession : session (r ++ [.acked nr]) =
      ⟨(session r).sent, Serial.advance mod8 (session r).acked nr⟩ := session_snoc r _
  have hle := Serial.le_advance (m := mod8) (session r).acked nr
  refine ⟨?_, ?_, ?_⟩
  · rw [hcount]
    exact h.resets
  · rw [hcount, hsession]
    intro heq
    obtain ⟨hsent, hacked⟩ := h.same heq
    exact ⟨hsent, hacked.trans hle⟩
  · rw [hcount, hsession]
    exact h.anew

theorem Onward.effect (hp : st.platform.Passive) {ctrl : UInt8} {l : List Obs} {s s' : Ctx}
    (he : Effect st ctrl s s') (h : Onward l s.trace) : Onward l s'.trace := by
  cases he with
  | put f => exact h.quiet (.put st s f)
  | t1Start => exact h.quiet (.t1Start st s)
  | t1Stop => exact h.quiet (.t1Stop st s)
  | t2Start => exact h.quiet (.t2Start st s)
  | t2Stop => exact h.quiet (.t2Stop st s)
  | data payload => exact h.quiet (.onData hp s payload)
  | event event => exact h.quiet (.onEvent hp s event)
  | nullWindow => exact @Onward.neutral l s.trace [.nullWindow] h (by simp [Neutral])
  | receive payload => exact @Onward.neutral l s.trace [.received payload] h (by simp [Neutral])
  | link | rejException | remoteBusy | frmr | arm => exact h
  | reset =>
      obtain ⟨os, hos, htrace⟩ := (@resetState_quiet st s).trace
      have hclear : (clearState st s).trace = s.trace ++ [.reset] := by
        rw [clearState, clearSlotLens_eq]
        rfl
      rw [htrace, hclear]
      exact h.reset.neutral hos
  | ack hvalid hne => exact h.acked _

theorem Onward.dispatched (s : Ctx) (f : Received) :
    Onward s.trace (s.log (.dispatch f.address f.ctrl f.info)).trace := by
  have hcount : resetCount (s.trace ++ [.dispatch f.address f.ctrl f.info]) = resetCount s.trace := by
    rw [resetCount, List.count_append]
    rfl
  have hsession : session (s.trace ++ [.dispatch f.address f.ctrl f.info]) = session s.trace :=
    session_snoc s.trace _
  refine ⟨Nat.le_of_eq hcount.symm, fun _ => ?_, fun hlt => ?_⟩
  · rw [Ctx.log, hsession]
    exact ⟨rfl, Nat.le_refl _⟩
  · rw [Ctx.log, hcount] at hlt
    exact absurd hlt (Nat.lt_irrefl _)

/-- A frame keeps the window. -/
theorem WindowInv.dispatch (hp : st.platform.Passive) {s : Ctx} (h : WindowInv w s) (f : Received) :
    WindowInv w (f.dispatch st s) :=
  ((dispatchFrame_effects st f.ctrl s f.address f.info).induct (fun _ _ => Handled.effect hp)
    (h.dispatched f.address f.ctrl f.info)).1

/-- What a frame makes of the session: nothing is left of it, or an acknowledgement moves it on. -/
theorem session_dispatch (hp : st.platform.Passive) {s : Ctx} (hw : Windowed st s)
    (h : WindowInv w s) (f : Received) :
    session (f.dispatch st s).trace =
      if resets s f.ctrl then .start
      else if acks s f.ctrl then
        { session s.trace with acked := Serial.advance mod8 (session s.trace).acked (ctrlNr f.ctrl) }
      else session s.trace := by
  have hinv := h.dispatch hp f
  have honward : Onward s.trace (f.dispatch st s).trace :=
    (dispatchFrame_effects st f.ctrl s f.address f.info).induct
      (P := fun t => Onward s.trace t.trace) (fun _ _ => Onward.effect hp) (Onward.dispatched s f)
  have hresets := resetCount_dispatch hp s f
  have hview := dispatchFrame_ackView hp hw f
  generalize f.dispatch st s = t at *
  have hacked := hinv.acked_le
  by_cases hreset : resets s f.ctrl = true
  · rw [if_pos hreset] at hresets ⊢
    have hsent := honward.anew (by omega)
    rw [hsent] at hacked
    have hzero : (session t.trace).acked = 0 := Nat.le_zero.mp hacked
    calc session t.trace = ⟨(session t.trace).sent, (session t.trace).acked⟩ := rfl
      _ = .start := by rw [hsent, hzero, Session.start]
  · rw [if_neg hreset] at hresets ⊢
    obtain ⟨hsent, hle⟩ := honward.same (by omega)
    have hreset : resets s f.ctrl = false := by simpa using hreset
    obtain ⟨-, hva⟩ := next_of_not_resets (v := ackView s) (x := (s, f)) hreset
    rw [← hview] at hva
    have hva : t.va = if acks s f.ctrl then ctrlNr f.ctrl else s.va := hva
    have hmod := hinv.va
    have hlt := h.lt_mod8
    rw [hsent] at hacked
    have heta : session t.trace = ⟨(session s.trace).sent, (session t.trace).acked⟩ := by
      rw [← hsent]
    rw [heta]
    split_ifs with hacks
    · rw [if_pos hacks] at hva
      have hadvance := Serial.advance_eq (m := mod8) (ctrlNr_lt f.ctrl) hle (by omega)
        (hmod.symm.trans hva)
      rw [hadvance]
    · rw [if_neg hacks, h.va] at hva
      have hsame := Serial.eq_of_mod_eq (m := mod8) hle (by omega) (Nat.le_refl _) (by simp [mod8])
        (hmod.symm.trans hva)
      rw [hsame]

end Session

/-- The link state, the addresses, V(R), the I-frames accepted in this session, and the frames put on the
line. -/
@[ext]
structure Face where
  currentState : State
  myAddress : UInt8
  peerAddress : UInt8
  vr : Nat
  got : List (List UInt8)
  wires : List Wire

namespace Face

def say (v : Face) (crc : CrcOps) (f : Frame) : Face := { v with wires := v.wires ++ [f.wire crc] }

def goto (v : Face) (state : State) : Face := { v with currentState := state }

def fresh (v : Face) : Face := { v with vr := 0, got := [] }

def receive (v : Face) (payload : List UInt8) : Face :=
  { v with vr := (v.vr + 1) % mod8, got := v.got ++ [payload] }

end Face

def LinkView.face (v : LinkView) : Face :=
  ⟨v.currentState, v.myAddress, v.peerAddress, v.vr, v.got, wires v.line⟩

def face (s : Ctx) : Face := (linkView s).face

theorem face_wires (s : Ctx) : (face s).wires = wires s.trace := wires_onLine s.trace

namespace LinkView

variable (st : Station)

@[simp] theorem face_say (v : LinkView) (crc : CrcOps) (f : Frame) :
    (v.say crc f).face = v.face.say crc f := by
  simp only [face, say, wires_obs, Face.say]

/-- After several frames on the line. -/
def sayAll (v : LinkView) (crc : CrcOps) (fs : List Frame) : LinkView := fs.foldl (fun v f => v.say crc f) v

theorem face_sayAll (v : LinkView) (crc : CrcOps) (fs : List Frame) :
    (v.sayAll crc fs).face = { v.face with wires := v.face.wires ++ fs.map (Frame.wire crc) } := by
  induction fs generalizing v with
  | nil => exact Face.ext rfl rfl rfl rfl rfl (List.append_nil _).symm
  | cons f fs ih =>
      have hstep : v.sayAll crc (f :: fs) = (v.say crc f).sayAll crc fs := rfl
      rw [hstep, ih, face_say, List.map_cons, List.append_cons]
      rfl

@[simp] theorem face_tell (v : LinkView) (os : List Obs) : (v.tell os).face = v.face := rfl

@[simp] theorem face_goto (v : LinkView) (state : State) : (v.goto state).face = v.face.goto state := rfl

@[simp] theorem face_fresh (v : LinkView) : v.fresh.face = v.face.fresh := rfl

@[simp] theorem face_stopT2 (v : LinkView) : v.stopT2.face = v.face := rfl

@[simp] theorem face_leave (v : LinkView) (state : State) (event : Event) :
    (v.leave st state event).face = v.face.goto state := rfl

@[simp] theorem face_busy (v : LinkView) (kind : Nat) : (v.busy st kind).face = v.face := by
  unfold busy
  split_ifs <;> rfl

/-- The answers to commands and polls. -/
theorem face_sayUa (v : LinkView) (pf : Bool) :
    (v.sayUa st pf).face = v.face.say st.crc ⟨v.myAddress, uCtrl uUa pf, []⟩ := face_say v _ _

theorem face_sayDm (v : LinkView) (pf : Bool) :
    (v.sayDm st pf).face = v.face.say st.crc ⟨v.myAddress, uCtrl uDm pf, []⟩ := face_say v _ _

theorem face_sayS (v : LinkView) (address : UInt8) (kind : Nat) (pf : Bool) :
    (v.sayS st address kind pf).face = v.face.say st.crc ⟨address, sCtrl kind v.vr pf, []⟩ := face_say v _ _

theorem face_accept (v : LinkView) (pf : Bool) :
    (v.accept st pf).face =
      (v.face.fresh.say st.crc ⟨v.myAddress, uCtrl uUa pf, []⟩).goto .connected := by
  simp only [accept, face_tell, face_goto, face_say, face_fresh]

theorem face_reject (v : LinkView) (frmr : Frame) :
    (v.reject st frmr).face = (v.face.say st.crc frmr).goto .frmrError := by
  simp only [reject, face_leave, face_say, face_stopT2]

theorem face_poll (v : LinkView) (polled : Bool) :
    (v.poll st polled).face =
      if polled then v.face.say st.crc ⟨v.face.myAddress, sCtrl sRr v.face.vr true, []⟩ else v.face := by
  unfold poll
  split_ifs
  · rw [face_stopT2, face_sayS]
    rfl
  · rfl

end LinkView

/-- Perhaps an acknowledgement is sent. -/
def Face.Acknowledges (crc : CrcOps) (poll : Bool) (v v' : Face) : Prop :=
  v' = v ∨ ∃ address kind, (address = v.myAddress ∨ address = v.peerAddress) ∧
    v' = v.say crc ⟨address, sCtrl kind v.vr poll, []⟩

theorem LinkView.face_receive (st : Station) (v : LinkView) (payload : List UInt8) :
    (v.face.receive payload).Acknowledges st.crc false (v.receive st false payload).face := by
  unfold receive acknowledge
  simp only [Bool.false_eq_true, if_false]
  split_ifs
  · exact Or.inl rfl
  · exact Or.inr ⟨v.myAddress, sRnr, Or.inl rfl, face_sayS st _ _ _ _⟩
  · exact Or.inl rfl

theorem LinkView.face_refuse (st : Station) (v : LinkView) :
    v.face.Acknowledges st.crc false (v.refuse st false).face := by
  unfold refuse
  simp only [Bool.false_eq_true, if_false]
  split_ifs
  · exact Or.inl rfl
  · refine Or.inr ⟨v.peerAddress, sRej, Or.inr rfl, ?_⟩
    rw [face_stopT2, face_sayS]
    rfl

/-! ### Frames as messages -/

/-- A frame of a station with the address `my`, set up to talk to `peer`, as a message of its peer. What
matters of a payload is what the receiver makes of it. -/
inductive Means (my peer : UInt8) (f : Frame) (number : Nat) : Msg (List UInt8) → Prop where
  | data (k r : Nat) (haddr : f.address = peer) (hctrl : f.ctrl = iCtrl k r false) :
      Means my peer f number (.data k (heardInfo f.info) r)
  | ack (kind r : Nat) (poll : Bool) (haddr : f.address = my ∨ f.address = peer)
      (hctrl : f.ctrl = sCtrl kind r poll) (hinfo : f.info = []) : Means my peer f number (.ack r poll)
  | setup (heq : f = ⟨peer, uCtrl uSabm true, []⟩) : Means my peer f number (.setup number)
  | release (heq : f = ⟨peer, uCtrl uDisc true, []⟩) : Means my peer f number (.release number)
  | accept (heq : f = ⟨my, uCtrl uUa true, []⟩) : Means my peer f number (.accept number)
  | refuse (heq : f = ⟨my, uCtrl uDm true, []⟩) : Means my peer f number (.refuse number)
  | reject (haddr : f.address = my) (hctrl : f.ctrl = uCtrl uFrmr false) (hinfo : f.info.length = 3) :
      Means my peer f number .reject

/-- The link state of a peer. -/
def linkOf : State → Link
  | .disconnected => .down
  | .connecting => .opening
  | .connected => .up
  | .frmrError => .broken
  | .disconnecting => .closing

theorem linkOf_opening {state : State} : linkOf state = .opening ↔ state = .connecting := by
  cases state <;> decide

theorem linkOf_up {state : State} : linkOf state = .up ↔ state = .connected := by
  cases state <;> decide

theorem linkOf_down {state : State} : linkOf state = .down ↔ state = .disconnected := by
  cases state <;> decide

theorem oneSlot_le : 1 ≤ 7 := by decide

/-- The transmit window; a station without one never uses it. -/
def windowOf (st : Station) : TxWindow := st.txWindow.getD ⟨0, 1, Nat.one_pos, oneSlot_le⟩

theorem windowOf_eq {st : Station} {w : TxWindow} (hw : st.txWindow = some w) : windowOf st = w := by
  rw [windowOf, hw, Option.getD_some]

/-- A context of a station that talks to `peer`, and the peer it stands for; no payload is longer than
`bound`. -/
structure Reflects (st : Station) (peer : UInt8) (bound : Nat) (s : Ctx) (x : Peer (List UInt8)) : Prop where
  link : x.link = linkOf s.currentState
  myAddress : s.myAddress = st.config.address
  peerAddress : s.peerAddress = peer
  windowed : Windowed st s
  inv : WindowInv (windowOf st) s
  window : x.window = (windowOf st).slotCount
  sent : x.sent = (session s.trace).sent.map heardInfo
  acked : x.acked = (session s.trace).acked
  got : x.got = received s.trace
  vr : s.vr = x.got.length % mod8
  bounded : ∀ payload ∈ (session s.trace).sent, payload.length ≤ bound

section Reflects

variable {st : Station} {peer : UInt8} {bound : Nat} {s : Ctx} {x : Peer (List UInt8)}

theorem Reflects.sent_length (h : Reflects st peer bound s x) :
    x.sent.length = (session s.trace).sent.length := by
  rw [h.sent, List.length_map]

/-- What is not part of a peer, and the parser's fields, do not matter. -/
theorem Reflects.quiet (h : Reflects st peer bound s x) {s' : Ctx} (hq : Quiet s s')
    (hface : { face s' with wires := [] } = { face s with wires := [] }) : Reflects st peer bound s' x := by
  obtain ⟨os, hos, htrace⟩ := hq.trace
  have hsession : session s'.trace = session s.trace := by rw [htrace, session_neutral _ hos]
  have hgot : received s'.trace = received s.trace := congrArg Face.got hface
  have hvr : s'.vr = s.vr := congrArg Face.vr hface
  refine ⟨?_, ?_, ?_, ?_, h.inv.quiet hq, h.window, ?_, ?_, ?_, ?_, ?_⟩
  · have hstate : s'.currentState = s.currentState := congrArg Face.currentState hface
    rw [hstate]
    exact h.link
  · exact (congrArg Face.myAddress hface).trans h.myAddress
  · exact (congrArg Face.peerAddress hface).trans h.peerAddress
  · intro hnone
    rw [hq.va, hq.vs]
    exact h.windowed hnone
  · rw [hsession]
    exact h.sent
  · rw [hsession]
    exact h.acked
  · rw [hgot]
    exact h.got
  · rw [hvr]
    exact h.vr
  · rw [hsession]
    exact h.bounded

/-- N(R) is valid just when the acknowledgement it stands for does not pass what was sent. -/
theorem Reflects.nrValid_iff (h : Reflects st peer bound s x) {nr : Nat} (hnr : nr < mod8) :
    nrValid s nr = true ↔ Serial.advance mod8 x.acked nr ≤ x.sent.length := by
  rw [h.acked, h.sent_length]
  exact AtcHdlc.nrValid_iff h.inv.va h.inv.vs h.inv.acked_le h.inv.lt_mod8 hnr

variable (hp : st.platform.Passive)
include hp

theorem face_dispatch (s : Ctx) (f : Received) : face (f.dispatch st s) = ((linkView s).next st s f).face :=
  congrArg LinkView.face (dispatchFrame_linkView hp s f)

/-- The peer that a context stands for after a frame. -/
theorem Reflects.dispatch (h : Reflects st peer bound s x) (f : Received) {v : Face}
    (hface : ((linkView s).next st s f).face = v) {x' : Peer (List UInt8)}
    (hlink : x'.link = linkOf v.currentState) (hmy : v.myAddress = s.myAddress)
    (hpeer : v.peerAddress = s.peerAddress) (hwindow : x'.window = x.window)
    (hsent : x'.sent = if resets s f.ctrl then [] else x.sent)
    (hacked : x'.acked = if resets s f.ctrl then 0
      else if acks s f.ctrl then Serial.advance mod8 x.acked (ctrlNr f.ctrl) else x.acked)
    (hgot : x'.got = v.got) (hvr : v.vr = x'.got.length % mod8) :
    Reflects st peer bound (f.dispatch st s) x' := by
  have hview := face_dispatch hp s f
  rw [hface] at hview
  have hsession := session_dispatch hp h.windowed h.inv f
  refine ⟨?_, ?_, ?_, h.windowed.dispatch hp f, h.inv.dispatch hp f, hwindow.trans h.window, ?_,
    ?_, ?_, ?_, ?_⟩
  · rw [hlink]
    exact congrArg (linkOf ·.currentState) hview.symm
  · exact ((congrArg Face.myAddress hview).trans hmy).trans h.myAddress
  · exact ((congrArg Face.peerAddress hview).trans hpeer).trans h.peerAddress
  · rw [hsession, hsent]
    split_ifs
    · rfl
    · exact h.sent
    · exact h.sent
  · rw [hsession, hacked]
    split_ifs
    · rfl
    · rw [h.acked]
    · exact h.acked
  · rw [hgot]
    exact (congrArg Face.got hview).symm
  · rw [← hvr]
    exact congrArg Face.vr hview
  · rw [hsession]
    split_ifs
    · exact fun payload hmem => absurd hmem List.not_mem_nil
    · exact h.bounded
    · exact h.bounded

end Reflects

/-- What a station has put on the line is what its peer has said, and no command is among it. -/
structure Spoken (st : Station) (peer : UInt8) (s s' : Ctx) (x x' : Peer (List UInt8)) : Prop where
  commands : x'.commands = x.commands
  heard : x'.heard = x.heard
  said : ∃ fs ms, wires s'.trace = wires s.trace ++ fs.map (Frame.wire st.crc) ∧ x'.out = x.out ++ ms ∧
    List.Forall₂ (fun f m => Means st.config.address peer f x.heard m ∧ m.command? = none) fs ms

section Spoken

variable {st : Station} {peer : UInt8} {s s' s'' : Ctx} {x x' x'' : Peer (List UInt8)}

theorem Spoken.silent (hcommands : x'.commands = x.commands) (hheard : x'.heard = x.heard)
    (hwires : wires s'.trace = wires s.trace) (hout : x'.out = x.out) : Spoken st peer s s' x x' :=
  ⟨hcommands, hheard, [], [], by simp [hwires], by simp [hout], .nil⟩

theorem Spoken.one (hcommands : x'.commands = x.commands) (hheard : x'.heard = x.heard) (f : Frame)
    (m : Msg (List UInt8)) (hwires : wires s'.trace = wires s.trace ++ [f.wire st.crc])
    (hout : x'.out = x.out ++ [m]) (hm : Means st.config.address peer f x.heard m)
    (hcommand : m.command? = none) : Spoken st peer s s' x x' :=
  ⟨hcommands, hheard, [f], [m], hwires, hout, .cons ⟨hm, hcommand⟩ .nil⟩

theorem Spoken.trans (h : Spoken st peer s s' x x') (h' : Spoken st peer s' s'' x' x'') :
    Spoken st peer s s'' x x'' := by
  obtain ⟨fs, ms, hwires, hout, hmeans⟩ := h.said
  obtain ⟨fs', ms', hwires', hout', hmeans'⟩ := h'.said
  rw [h.heard] at hmeans'
  refine ⟨h'.commands.trans h.commands, h'.heard.trans h.heard, fs ++ fs', ms ++ ms', ?_, ?_, ?_⟩
  · rw [hwires', hwires, List.map_append, List.append_assoc]
  · rw [hout', hout, List.append_assoc]
  · exact List.rel_append hmeans hmeans'

end Spoken

/-- A peer once it has taken note of a command. -/
def listen (x : Peer (List UInt8)) (m : Msg (List UInt8)) : Peer (List UInt8) :=
  match m.command? with
  | some n => x.hear n
  | none => x

/-- What hearing a message may lead to, if it is heeded. -/
def Hears (R : Rules) (x : Peer (List UInt8)) (m : Msg (List UInt8)) (x' : Peer (List UInt8)) : Prop :=
  ∀ (y : Peer (List UInt8)) (rest : List (Msg (List UInt8))), y.out = m :: rest →
    (x.link = .opening → ∀ n, m = .accept n → n = x.commands) →
    (x.link = .opening → ∀ n, m = .refuse n → ∀ n', .setup n' ∉ x.out) →
    Relation.ReflTransGen (Talk R) ⟨x, y⟩ ⟨x', { y with out := rest }⟩

section Hears

variable {R : Rules} {x x' : Peer (List UInt8)} {m : Msg (List UInt8)}

theorem Hears.recv (x : Peer (List UInt8)) (m : Msg (List UInt8)) : Hears R x m (handle R x m) :=
  fun _ rest hout haccept hrefuse => .single (.recv m rest hout haccept hrefuse)

theorem Hears.acknowledge (h : Hears R x m x') (hup : x'.link = .up) :
    Hears R x m (x'.say (.ack x'.got.length false)) :=
  fun y rest hout haccept hrefuse =>
    (h y rest hout haccept hrefuse).tail (.ack false hup fun hpoll => absurd hpoll (by decide))

/-- A poll is answered before it is heeded. -/
theorem Hears.answer {r : Nat} (hup : x.link = .up) :
    Hears R x (.ack r true) (handle R (x.say (.ack x.got.length true)) (.ack r true)) := by
  intro y rest hout _ _
  refine (Relation.ReflTransGen.single (.ack true hup fun _ => Or.inr ⟨r, rest, hout⟩)).tail
    (.recv _ rest hout ?_ ?_)
  · exact fun _ n heq => absurd heq (by simp)
  · exact fun _ n heq => absurd heq (by simp)

end Hears

/-! ### Hearing a frame -/

section Hear

variable {st : Station} {peer : UInt8} {bound : Nat} {s : Ctx} {x : Peer (List UInt8)} {R : Rules}

/-- What a station makes of a frame is what its peer makes of the message. -/
def Simulates (st : Station) (peer : UInt8) (bound : Nat) (R : Rules) (s : Ctx) (x : Peer (List UInt8)) (f : Frame)
    (m : Msg (List UInt8)) : Prop :=
  ∃ x', Reflects st peer bound (f.arriving.dispatch st s) x' ∧
    Spoken st peer s (f.arriving.dispatch st s) (listen x m) x' ∧ Hears R x m x'

variable (hp : st.platform.Passive)
include hp

/-- The frames that a dispatch puts on the line. -/
theorem wires_dispatch (s : Ctx) (f : Received) {v : Face}
    (hface : ((linkView s).next st s f).face = v) : wires (f.dispatch st s).trace = v.wires := by
  rw [← face_wires, face_dispatch hp, hface]

/-- A frame that acknowledges nothing: whether `reset_state` runs, the link state it leads to, and what is
answered. -/
theorem Reflects.answering (h : Reflects st peer bound s x) {f : Frame} {m : Msg (List UInt8)} (b : Bool)
    (state : State) (v : LinkView) {fs : List Frame} {ms : List (Msg (List UInt8))}
    (hacks : acks s f.ctrl = false) (hb : resets s f.ctrl = b) (hnext : (linkView s).next st s f.arriving = v)
    (hface : v.face =
      { face s with
        currentState := state, vr := if b then 0 else s.vr, got := if b then [] else (face s).got
        wires := (face s).wires ++ fs.map (Frame.wire st.crc) })
    (hhandle : handle R x m =
      { listen x m with
        link := linkOf state, sent := if b then [] else x.sent, acked := if b then 0 else x.acked
        got := if b then [] else x.got, resets := if b then x.resets + 1 else x.resets, out := x.out ++ ms })
    (hsaid : List.Forall₂ (fun f m' => Means st.config.address peer f (listen x m).heard m' ∧
      m'.command? = none) fs ms) : Simulates st peer bound R s x f m := by
  rw [← hnext] at hface
  have hwindow : (listen x m).window = x.window := by
    unfold listen
    split <;> rfl
  have hout : (listen x m).out = x.out := by
    unfold listen
    split <;> rfl
  refine ⟨handle R x m, h.dispatch hp f.arriving hface ?_ rfl rfl ?_ ?_ ?_ ?_ ?_, ?_, Hears.recv x m⟩
  · rw [hhandle]
  · rw [hhandle]
    exact hwindow
  · rw [hhandle]
    exact if_congr (by rw [← hb]; rfl) rfl rfl
  · rw [hhandle]
    refine if_congr (by rw [← hb]; rfl) rfl ?_
    exact (if_neg (by rw [Frame.arriving, hacks]; decide)).symm
  · rw [hhandle]
    cases b with
    | true => rfl
    | false => exact h.got
  · rw [hhandle]
    cases b with
    | true => rfl
    | false => exact h.vr
  · refine ⟨by rw [hhandle], by rw [hhandle], fs, ms, ?_, ?_, hsaid⟩
    · rw [wires_dispatch hp _ _ hface]
      exact congrArg (· ++ _) (face_wires s)
    · rw [hhandle, hout]

omit hp in
/-- An answer as a message. -/
theorem said_answer (h : Reflects st peer bound s x) {y : Peer (List UInt8)} {cmd : UInt8} {m : Msg (List UInt8)}
    (hm : cmd = uUa ∧ m = .accept y.heard ∨ cmd = uDm ∧ m = .refuse y.heard) :
    List.Forall₂ (fun f m' => Means st.config.address peer f y.heard m' ∧ m'.command? = none)
      [⟨s.myAddress, uCtrl cmd true, []⟩] [m] := by
  rw [h.myAddress]
  rcases hm with ⟨rfl, rfl⟩ | ⟨rfl, rfl⟩
  · exact .cons ⟨.accept rfl, rfl⟩ .nil
  · exact .cons ⟨.refuse rfl, rfl⟩ .nil

/-- A frame that is not heeded. -/
theorem Reflects.ignored (h : Reflects st peer bound s x) {f : Frame} {m : Msg (List UInt8)}
    (hresets : resets s f.ctrl = false) (hacks : acks s f.ctrl = false)
    (hnext : (linkView s).next st s f.arriving = linkView s) (hhandle : handle R x m = listen x m) :
    Simulates st peer bound R s x f m := by
  have hface := congrArg LinkView.face hnext
  have hresets : ¬resets s f.arriving.ctrl = true := by simp [Frame.arriving, hresets]
  have hacks : ¬acks s f.arriving.ctrl = true := by simp [Frame.arriving, hacks]
  have hkept {β : Type} (field : Peer (List UInt8) → β) (hhear : ∀ n, field (x.hear n) = field x) :
      field (handle R x m) = field x := by
    rw [hhandle]
    unfold listen
    split
    · exact hhear _
    · rfl
  refine ⟨handle R x m, h.dispatch hp f.arriving hface ?_ rfl rfl ?_ ?_ ?_ ?_ ?_, ?_, Hears.recv x m⟩
  · exact (hkept Peer.link fun _ => rfl).trans h.link
  · exact hkept Peer.window fun _ => rfl
  · rw [if_neg hresets]
    exact hkept Peer.sent fun _ => rfl
  · rw [if_neg hresets, if_neg hacks]
    exact hkept Peer.acked fun _ => rfl
  · exact (hkept Peer.got fun _ => rfl).trans h.got
  · rw [hkept Peer.got fun _ => rfl]
    exact h.vr
  · rw [hhandle]
    refine .silent rfl rfl ?_ rfl
    rw [wires_dispatch hp _ _ hface]
    exact face_wires s

omit hp in
theorem acks_unnumbered {ctrl : UInt8} (hu : isUframe ctrl = true) : acks s ctrl = false := by
  simp [acks, hu]

theorem simulates_setup (h : Reflects st peer bound s x) (n : Nat) :
    Simulates st peer bound R s x ⟨st.config.address, uCtrl uSabm true, []⟩ (.setup n) := by
  have hu : isUframe (uCtrl uSabm true) = true := by decide
  have hcmd : uCmd (uCtrl uSabm true) = .sabm := by decide
  have hpf : ctrlPf (uCtrl uSabm true) = true := by decide
  have hlink := h.link
  have hua := said_answer h (y := x.hear n) (m := .accept n) (Or.inl ⟨rfl, rfl⟩)
  have hdm := said_answer h (y := x.hear n) (m := .refuse n) (Or.inr ⟨rfl, rfl⟩)
  cases hstate : s.currentState with
  | disconnected =>
      rw [hstate] at hlink
      refine h.answering hp true .connected _ (acks_unnumbered hu) ?_ ?_
        (LinkView.face_accept st (linkView s) true) ?_ hua
      · simp [resets, hstate, hcmd, hu]
      · simp only [LinkView.next, hstate, Frame.arriving, hu, hcmd, hpf, not_true_eq_false, if_true, if_false]
      · simp only [handle, hlink, linkOf]
        rfl
  | frmrError =>
      rw [hstate] at hlink
      refine h.answering hp true .connected _ (acks_unnumbered hu) ?_ ?_
        (LinkView.face_accept st (linkView s) true) ?_ hua
      · simp [resets, hstate, hcmd, hu]
      · simp only [LinkView.next, hstate, Frame.arriving, hu, hcmd, hpf, and_self, if_true]
      · simp only [handle, hlink, linkOf]
        rfl
  | connected =>
      rw [hstate] at hlink
      refine h.answering hp true .connected _ (acks_unnumbered hu) ?_ ?_
        (LinkView.face_accept st (linkView s) true) ?_ hua
      · simp [resets, hstate, hcmd, hu]
      · simp only [LinkView.next, hstate, Frame.arriving, hu, if_true, LinkView.unnumbered, hcmd, hpf]
      · simp only [handle, hlink, linkOf]
        rfl
  | connecting =>
      rw [hstate] at hlink
      have hhandle : handle R x (.setup n) = (x.hear n).say (.accept n) := by simp only [handle, hlink, linkOf]
      refine h.answering hp false s.currentState _ (acks_unnumbered hu) ?_ ?_ (LinkView.face_sayUa st (linkView s) true) ?_ hua
      · simp [resets, hstate, hcmd, hu]
      · simp only [LinkView.next, hstate, Frame.arriving, hu, hcmd, hpf, not_true_eq_false, if_true, if_false]
      · rw [← h.link]
        exact hhandle
  | disconnecting =>
      rw [hstate] at hlink
      have hhandle : handle R x (.setup n) = (x.hear n).say (.refuse n) := by simp only [handle, hlink, linkOf]
      refine h.answering hp false s.currentState _ (acks_unnumbered hu) ?_ ?_ (LinkView.face_sayDm st (linkView s) true) ?_ hdm
      · simp [resets, hstate, hcmd, hu]
      · simp only [LinkView.next, hstate, Frame.arriving, hu, hcmd, hpf, not_true_eq_false, if_true, if_false]
      · rw [← h.link]
        exact hhandle

theorem simulates_release (h : Reflects st peer bound s x) (n : Nat) :
    Simulates st peer bound R s x ⟨st.config.address, uCtrl uDisc true, []⟩ (.release n) := by
  have hu : isUframe (uCtrl uDisc true) = true := by decide
  have hcmd : uCmd (uCtrl uDisc true) = .disc := by decide
  have hpf : ctrlPf (uCtrl uDisc true) = true := by decide
  have hlink := h.link
  have hua := said_answer h (y := x.hear n) (m := .accept n) (Or.inl ⟨rfl, rfl⟩)
  have hdm := said_answer h (y := x.hear n) (m := .refuse n) (Or.inr ⟨rfl, rfl⟩)
  cases hstate : s.currentState with
  | disconnected =>
      rw [hstate] at hlink
      have hhandle : handle R x (.release n) = (x.hear n).say (.accept n) := by simp only [handle, hlink, linkOf]
      refine h.answering hp false s.currentState _ (acks_unnumbered hu) ?_ ?_ (LinkView.face_sayUa st (linkView s) true) ?_ hua
      · simp [resets, hstate, hcmd, hu]
      · simp only [LinkView.next, hstate, Frame.arriving, hu, hcmd, hpf, not_true_eq_false, if_true, if_false]
      · rw [← h.link]
        exact hhandle
  | disconnecting =>
      rw [hstate] at hlink
      have hhandle : handle R x (.release n) = (x.hear n).say (.accept n) := by simp only [handle, hlink, linkOf]
      refine h.answering hp false s.currentState _ (acks_unnumbered hu) ?_ ?_ (LinkView.face_sayUa st (linkView s) true) ?_ hua
      · simp [resets, hstate, hcmd, hu]
      · simp only [LinkView.next, hstate, Frame.arriving, hu, hcmd, hpf, not_true_eq_false, if_true, if_false]
      · rw [← h.link]
        exact hhandle
  | connecting =>
      rw [hstate] at hlink
      have hhandle : handle R x (.release n) = (x.hear n).say (.refuse n) := by simp only [handle, hlink, linkOf]
      refine h.answering hp false s.currentState _ (acks_unnumbered hu) ?_ ?_ (LinkView.face_sayDm st (linkView s) true) ?_ hdm
      · simp [resets, hstate, hcmd, hu]
      · simp only [LinkView.next, hstate, Frame.arriving, hu, hcmd, hpf, not_true_eq_false, if_true, if_false]
      · rw [← h.link]
        exact hhandle
  | frmrError =>
      rw [hstate] at hlink
      refine h.ignored hp ?_ ?_ ?_ ?_
      · simp [resets, hstate, hcmd, hu]
      · simp [acks, hstate]
      · simp only [LinkView.next, hstate, Frame.arriving, hu, hcmd, reduceCtorEq, and_false, if_false]
      · simp only [handle, hlink, linkOf, listen, Msg.command?]
  | connected =>
      rw [hstate] at hlink
      refine h.answering hp true .disconnected
        (((linkView s).fresh.sayUa st true).leave st .disconnected .peerDisc) (acks_unnumbered hu) ?_ ?_ ?_ ?_ hua
      · simp [resets, hstate, hcmd, hu]
      · simp only [LinkView.next, hstate, Frame.arriving, hu, if_true, LinkView.unnumbered, hcmd, hpf]
      · exact congrArg (Face.goto · .disconnected) (LinkView.face_sayUa st (linkView s).fresh true)
      · simp only [handle, hlink, linkOf]
        rfl

theorem simulates_accept (h : Reflects st peer bound s x) (n : Nat) :
    Simulates st peer bound R s x ⟨peer, uCtrl uUa true, []⟩ (.accept n) := by
  have hu : isUframe (uCtrl uUa true) = true := by decide
  have hcmd : uCmd (uCtrl uUa true) = .ua := by decide
  have hpf : ctrlPf (uCtrl uUa true) = true := by decide
  have hlink := h.link
  cases hstate : s.currentState with
  | disconnected =>
      rw [hstate] at hlink
      refine h.ignored hp ?_ ?_ ?_ ?_
      · simp [resets, hstate, hcmd, hu]
      · simp [acks, hstate]
      · simp only [LinkView.next, hstate, Frame.arriving, hu, hcmd, not_true_eq_false, if_true, if_false]
      · simp only [handle, hlink, linkOf, listen, Msg.command?]
  | frmrError =>
      rw [hstate] at hlink
      refine h.ignored hp ?_ ?_ ?_ ?_
      · simp [resets, hstate, hcmd, hu]
      · simp [acks, hstate]
      · simp only [LinkView.next, hstate, Frame.arriving, hu, hcmd, reduceCtorEq, and_false, if_false]
      · simp only [handle, hlink, linkOf, listen, Msg.command?]
  | connecting =>
      rw [hstate] at hlink
      have hhandle : handle R x (.accept n) = x.fresh.goto .up := by simp only [handle, hlink, linkOf]
      refine h.answering hp true .connected ((linkView s).fresh.leave st .connected .connAccepted) (acks_unnumbered hu) ?_ ?_ ?_ ?_
        .nil
      · simp [resets, hstate, hcmd, hu, hpf]
      · simp only [LinkView.next, hstate, Frame.arriving, hu, hcmd, hpf, not_true_eq_false, if_true, if_false]
      · exact Face.ext rfl rfl rfl rfl rfl (List.append_nil _).symm
      · rw [hhandle, List.append_nil]
        rfl
  | disconnecting =>
      rw [hstate] at hlink
      have hhandle : handle R x (.accept n) = x.goto .down := by simp only [handle, hlink, linkOf]
      refine h.answering hp false .disconnected ((linkView s).leave st .disconnected .discDone) (acks_unnumbered hu) ?_ ?_ ?_ ?_
        .nil
      · simp [resets, hstate, hcmd, hu]
      · simp only [LinkView.next, hstate, Frame.arriving, hu, hcmd, hpf, not_true_eq_false, if_true, if_false]
      · exact Face.ext rfl rfl rfl rfl rfl (List.append_nil _).symm
      · rw [hhandle, List.append_nil]
        rfl
  | connected =>
      rw [hstate] at hlink
      have hhandle : handle R x (.accept n) = x.say .reject := by simp only [handle, hlink, linkOf]
      refine h.answering hp false s.currentState _ (acks_unnumbered hu) ?_ ?_
        (LinkView.face_say (linkView s).stopT2 st.crc (frmrFrame s (uCtrl uUa true) frmrW)) ?_
        (.cons ⟨.reject h.myAddress rfl rfl, rfl⟩ .nil)
      · simp [resets, hstate, hcmd, hu]
      · simp only [LinkView.next, hstate, Frame.arriving, hu, if_true, LinkView.unnumbered, hcmd]
      · rw [← h.link]
        exact hhandle

theorem simulates_refuse (h : Reflects st peer bound s x) (n : Nat) :
    Simulates st peer bound R s x ⟨peer, uCtrl uDm true, []⟩ (.refuse n) := by
  have hu : isUframe (uCtrl uDm true) = true := by decide
  have hcmd : uCmd (uCtrl uDm true) = .dm := by decide
  have hpf : ctrlPf (uCtrl uDm true) = true := by decide
  have hlink := h.link
  cases hstate : s.currentState with
  | disconnected =>
      rw [hstate] at hlink
      refine h.ignored hp ?_ ?_ ?_ ?_
      · simp [resets, hstate, hcmd, hu]
      · simp [acks, hstate]
      · simp only [LinkView.next, hstate, Frame.arriving, hu, hcmd, not_true_eq_false, if_true, if_false]
      · simp only [handle, hlink, linkOf, listen, Msg.command?]
  | frmrError =>
      rw [hstate] at hlink
      refine h.ignored hp ?_ ?_ ?_ ?_
      · simp [resets, hstate, hcmd, hu]
      · simp [acks, hstate]
      · simp only [LinkView.next, hstate, Frame.arriving, hu, hcmd, reduceCtorEq, and_false, if_false]
      · simp only [handle, hlink, linkOf, listen, Msg.command?]
  | connecting =>
      rw [hstate] at hlink
      have hhandle : handle R x (.refuse n) = x.goto .down := by simp only [handle, hlink, linkOf]
      refine h.answering hp false .disconnected ((linkView s).leave st .disconnected .peerReject) (acks_unnumbered hu) ?_ ?_ ?_ ?_
        .nil
      · simp [resets, hstate, hcmd, hu]
      · simp only [LinkView.next, hstate, Frame.arriving, hu, hcmd, hpf, not_true_eq_false, if_true, if_false]
      · exact Face.ext rfl rfl rfl rfl rfl (List.append_nil _).symm
      · rw [hhandle, List.append_nil]
        rfl
  | disconnecting =>
      rw [hstate] at hlink
      have hhandle : handle R x (.refuse n) = x.goto .down := by simp only [handle, hlink, linkOf]
      refine h.answering hp false .disconnected ((linkView s).leave st .disconnected .peerReject) (acks_unnumbered hu) ?_ ?_ ?_ ?_
        .nil
      · simp [resets, hstate, hcmd, hu]
      · simp only [LinkView.next, hstate, Frame.arriving, hu, hcmd, hpf, not_true_eq_false, if_true, if_false]
      · exact Face.ext rfl rfl rfl rfl rfl (List.append_nil _).symm
      · rw [hhandle, List.append_nil]
        rfl
  | connected =>
      rw [hstate] at hlink
      have hhandle : handle R x (.refuse n) = (x.goto .down).fresh := by simp only [handle, hlink, linkOf]
      refine h.answering hp true .disconnected ((linkView s).fresh.leave st .disconnected .peerReject) (acks_unnumbered hu) ?_ ?_ ?_ ?_
        .nil
      · simp [resets, hstate, hcmd, hu]
      · simp only [LinkView.next, hstate, Frame.arriving, hu, if_true, LinkView.unnumbered, hcmd, hpf]
      · exact Face.ext rfl rfl rfl rfl rfl (List.append_nil _).symm
      · rw [hhandle, List.append_nil]
        rfl

theorem simulates_reject (h : Reflects st peer bound s x) {f : Frame} (hctrl : f.ctrl = uCtrl uFrmr false) :
    Simulates st peer bound R s x f .reject := by
  have hu : isUframe f.ctrl = true := by rw [hctrl]; decide
  have hcmd : uCmd f.ctrl = .frmr := by rw [hctrl]; decide
  have hlink := h.link
  cases hstate : s.currentState with
  | disconnected =>
      rw [hstate] at hlink
      refine h.ignored hp ?_ ?_ ?_ ?_
      · simp [resets, hstate, hcmd, hu]
      · simp [acks, hstate]
      · simp only [LinkView.next, hstate, Frame.arriving, hu, hcmd, not_true_eq_false, if_false]
      · simp only [handle, hlink, linkOf, listen, Msg.command?]
  | connecting =>
      rw [hstate] at hlink
      refine h.ignored hp ?_ ?_ ?_ ?_
      · simp [resets, hstate, hcmd, hu]
      · simp [acks, hstate]
      · simp only [LinkView.next, hstate, Frame.arriving, hu, hcmd, not_true_eq_false, if_false]
      · simp only [handle, hlink, linkOf, listen, Msg.command?]
  | disconnecting =>
      rw [hstate] at hlink
      refine h.ignored hp ?_ ?_ ?_ ?_
      · simp [resets, hstate, hcmd, hu]
      · simp [acks, hstate]
      · simp only [LinkView.next, hstate, Frame.arriving, hu, hcmd, not_true_eq_false, if_false]
      · simp only [handle, hlink, linkOf, listen, Msg.command?]
  | frmrError =>
      rw [hstate] at hlink
      refine h.ignored hp ?_ ?_ ?_ ?_
      · simp [resets, hstate, hcmd, hu]
      · simp [acks, hstate]
      · simp only [LinkView.next, hstate, Frame.arriving, hu, hcmd, reduceCtorEq, and_false, if_false]
      · simp only [handle, hlink, linkOf, listen, Msg.command?]
  | connected =>
      rw [hstate] at hlink
      have hhandle : handle R x .reject = (x.goto .broken).fresh := by simp only [handle, hlink, linkOf]
      refine h.answering hp true .frmrError ((linkView s).fresh.leave st .frmrError .protocolError) (acks_unnumbered hu) ?_ ?_ ?_ ?_
        .nil
      · simp [resets, hstate, hcmd, hu]
      · simp only [LinkView.next, hstate, Frame.arriving, hu, if_true, LinkView.unnumbered, hcmd]
      · exact Face.ext rfl rfl rfl rfl rfl (List.append_nil _).symm
      · rw [hhandle, List.append_nil]
        rfl

omit hp in
theorem sCtrl_mod (kind nr : Nat) (pf : Bool) : sCtrl kind (nr % mod8) pf = sCtrl kind nr pf := by
  simp only [sCtrl, and_seven, mod8, Nat.mod_mod]

omit hp in
theorem iCtrl_mod (ns nr : Nat) (pf : Bool) : iCtrl (ns % mod8) (nr % mod8) pf = iCtrl ns nr pf := by
  simp only [iCtrl, and_seven, mod8, Nat.mod_mod]

/-- A numbered frame with a valid N(R): its peer's acknowledgement moves on, and what else the frame does
shows in the face. -/
theorem Reflects.numbered (h : Reflects st peer bound s x) (hstate : s.currentState = .connected) (f : Received)
    (hu : isUframe f.ctrl = false) {nr : Nat} (hnr : ctrlNr f.ctrl = nr) (hvalid : nrValid s nr = true)
    {v : Face} (hface : ((linkView s).next st s f).face = v) (hv : v.currentState = .connected)
    (hmy : v.myAddress = s.myAddress) (hpeer : v.peerAddress = s.peerAddress)
    (hvr : v.vr = v.got.length % mod8) {x' : Peer (List UInt8)}
    (hx' : x' = { x with acked := Serial.advance mod8 x.acked nr, got := v.got, out := x'.out }) :
    Reflects st peer bound (f.dispatch st s) x' := by
  have hresets : ¬resets s f.ctrl = true := by simp [resets, hu]
  have hlink := h.link
  rw [hx']
  refine h.dispatch hp f hface ?_ hmy hpeer rfl ?_ ?_ rfl hvr
  · rw [hv]
    exact hlink.trans (by rw [hstate])
  · rw [if_neg hresets]
  · rw [if_neg hresets, hnr]
    by_cases hne : nr = s.va
    · have hacks : ¬acks s f.ctrl = true := by simp [acks, hnr, hne]
      have hva : s.va = x.acked % mod8 := by
        rw [h.acked]
        exact h.inv.va
      rw [if_neg hacks, hne, hva]
      exact Serial.advance_self (by decide) x.acked
    · have hacks : acks s f.ctrl = true := by simp [acks, hstate, hu, hnr, hvalid, hne]
      rw [if_pos hacks]

/-- A numbered frame with an invalid N(R). -/
theorem Reflects.invalid (h : Reflects st peer bound s x) (f : Received) (hu : isUframe f.ctrl = false) {nr : Nat}
    (hnr : ctrlNr f.ctrl = nr) (hvalid : ¬nrValid s nr = true) {v : Face}
    (hface : ((linkView s).next st s f).face = v) (hv : v.currentState = .frmrError)
    (hmy : v.myAddress = s.myAddress) (hpeer : v.peerAddress = s.peerAddress) (hvr : v.vr = s.vr)
    (hgot : v.got = (face s).got) (out : List (Msg (List UInt8))) :
    Reflects st peer bound (f.dispatch st s) { x with link := .broken, out := out } := by
  have hresets : ¬resets s f.ctrl = true := by simp [resets, hu]
  have hacks : ¬acks s f.ctrl = true := by simp [acks, hnr, hvalid]
  refine h.dispatch hp f hface ?_ hmy hpeer rfl ?_ ?_ ?_ ?_
  · rw [hv]
    rfl
  · rw [if_neg hresets]
  · rw [if_neg hresets, if_neg hacks]
  · exact h.got.trans hgot.symm
  · rw [hvr]
    exact h.vr

/-- A numbered frame with a valid N(R) after which an acknowledgement may be sent. -/
theorem Reflects.acknowledging (h : Reflects st peer bound s x) (hstate : s.currentState = .connected) {f : Frame}
    {m : Msg (List UInt8)} (hlisten : listen x m = x) (hu : isUframe f.ctrl = false) {nr : Nat}
    (hnr : ctrlNr f.ctrl = nr) (hvalid : nrValid s nr = true) {v : LinkView}
    (hnext : (linkView s).next st s f.arriving = v) (got : List (List UInt8))
    (hface : { face s with vr := got.length % mod8, got := got }.Acknowledges st.crc false v.face)
    (hhandle : handle R x m = { x with acked := Serial.advance mod8 x.acked nr, got := got }) :
    Simulates st peer bound R s x f m := by
  have hup : x.link = .up := h.link.trans (by rw [hstate, linkOf])
  rcases hface with hv | ⟨address, kind, haddr, hv⟩
  · rw [← hnext] at hv
    refine ⟨handle R x m, ?_, ?_, Hears.recv x m⟩
    · refine h.numbered hp hstate f.arriving hu hnr hvalid hv hstate rfl rfl rfl ?_
      rw [hhandle]
    · rw [hlisten, hhandle]
      refine .silent rfl rfl ?_ rfl
      rw [wires_dispatch hp _ _ hv]
      exact face_wires s
  · rw [← hnext] at hv
    refine ⟨(handle R x m).say (.ack (handle R x m).got.length false), ?_, ?_, ?_⟩
    · refine h.numbered hp hstate f.arriving hu hnr hvalid hv hstate rfl rfl rfl ?_
      rw [hhandle]
      rfl
    · have hsaid : wires (f.arriving.dispatch st s).trace =
          wires s.trace ++ [Frame.wire st.crc ⟨address, sCtrl kind (got.length % mod8) false, []⟩] := by
        rw [wires_dispatch hp _ _ hv]
        exact congrArg (· ++ _) (face_wires s)
      have haddr : address = st.config.address ∨ address = peer := by
        rcases haddr with haddr | haddr
        · exact Or.inl (haddr.trans h.myAddress)
        · exact Or.inr (haddr.trans h.peerAddress)
      rw [sCtrl_mod] at hsaid
      rw [hlisten, hhandle]
      exact .one rfl rfl _ _ hsaid rfl (.ack kind got.length false haddr rfl rfl) rfl
    · refine (Hears.recv x m).acknowledge ?_
      rw [hhandle]
      exact hup

omit hp in
theorem handle_data (hR : R.modulus = mod8) (hup : x.link = .up) (k r : Nat) (payload : List UInt8)
    (hle : Serial.advance mod8 x.acked (r % mod8) ≤ x.sent.length) :
    handle R x (.data k payload r) =
      if k % mod8 = x.got.length % mod8 then
        (x.settle (Serial.advance mod8 x.acked (r % mod8))).receive payload
      else x.settle (Serial.advance mod8 x.acked (r % mod8)) := by
  simp only [handle, hup, handleAck, hR]
  exact if_pos hle

theorem simulates_data (hR : R.modulus = mod8) (h : Reflects st peer bound s x) {f : Frame} {k r : Nat}
    (hctrl : f.ctrl = iCtrl k r false) : Simulates st peer bound R s x f (.data k (heardInfo f.info) r) := by
  obtain ⟨hi, hns, hnr, hpf⟩ := iCtrl_fields k r false
  have hu : isUframe (iCtrl k r false) = false := by
    rcases ctrl_cases (iCtrl k r false) with ⟨-, -, hu⟩ | ⟨-, -, hu⟩ | ⟨hi', -, -⟩
    · exact hu
    · exact hu
    · exact absurd (hi.symm.trans hi') (by decide)
  rw [← hctrl] at hi hns hnr hpf hu
  have hlink := h.link
  cases hstate : s.currentState with
  | connected =>
      rw [hstate] at hlink
      have hiff := h.nrValid_iff (show r % 8 < mod8 from Nat.mod_lt _ (by decide))
      by_cases hvalid : nrValid s (r % 8) = true
      · have hnext : (linkView s).next st s f.arriving =
            if k % 8 = s.vr then
              ((linkView s).tell (opened st s (r % 8))).receive st false (heardInfo f.info)
            else ((linkView s).tell (opened st s (r % 8))).refuse st false := by
          have hctrl : f.arriving.ctrl = f.ctrl := rfl
          simp only [LinkView.next, hstate, hctrl, hu, hi, hns, hnr, hpf, hvalid, arriving_info,
            Bool.false_eq_true, not_true_eq_false, if_true, if_false]
        have hle := hiff.mp hvalid
        have hvr : (linkView s).vr = x.got.length % mod8 := h.vr
        have hgot : (linkView s).got = x.got := h.got.symm
        by_cases hk : k % 8 = s.vr
        · rw [if_pos hk] at hnext
          refine h.acknowledging hp hstate rfl hu hnr hvalid hnext (x.got ++ [heardInfo f.info]) ?_ ?_
          · have hface := LinkView.face_receive st ((linkView s).tell (opened st s (r % 8)))
              (heardInfo f.info)
            have hbefore : ((linkView s).tell (opened st s (r % 8))).face.receive (heardInfo f.info) =
                { face s with
                  vr := (x.got ++ [heardInfo f.info]).length % mod8, got := x.got ++ [heardInfo f.info] } := by
              refine Face.ext rfl rfl rfl ?_ ?_ rfl
              · rw [List.length_append, ← Nat.mod_add_mod, ← hvr]
                rfl
              · rw [← hgot]
                rfl
            rw [← hbefore]
            exact hface
          · have hsame : k % mod8 = x.got.length % mod8 := by
              rw [← h.vr]
              exact hk
            rw [handle_data hR hlink k r _ hle, if_pos hsame]
            rfl
        · rw [if_neg hk] at hnext
          refine h.acknowledging hp hstate rfl hu hnr hvalid hnext x.got ?_ ?_
          · have hface := LinkView.face_refuse st ((linkView s).tell (opened st s (r % 8)))
            have hbefore : ((linkView s).tell (opened st s (r % 8))).face =
                { face s with vr := x.got.length % mod8, got := x.got } :=
              Face.ext rfl rfl rfl hvr hgot rfl
            rw [← hbefore]
            exact hface
          · have hother : ¬k % mod8 = x.got.length % mod8 := by
              rw [← h.vr]
              exact hk
            rw [handle_data hR hlink k r _ hle, if_neg hother]
            rfl
      · have hnext : (linkView s).next st s f.arriving =
            (linkView s).reject st (frmrFrame s f.ctrl frmrZ) := by
          have hctrl : f.arriving.ctrl = f.ctrl := rfl
          simp only [LinkView.next, hstate, hctrl, hu, hi, hnr, hvalid, Bool.false_eq_true,
            not_false_eq_true, if_true, if_false]
        have hface := congrArg LinkView.face hnext
        rw [LinkView.face_reject] at hface
        have hhandle : handle R x (.data k (heardInfo f.info) r) = (x.goto .broken).say .reject := by
          simp only [handle, hlink, linkOf, handleAck, hR]
          exact if_neg (mt hiff.mpr hvalid)
        refine ⟨_, ?_, ?_, Hears.recv x _⟩
        · rw [hhandle]
          exact h.invalid hp f.arriving hu hnr hvalid hface rfl rfl rfl rfl rfl (x.out ++ [.reject])
        · rw [hhandle]
          refine .one rfl rfl (frmrFrame s f.ctrl frmrZ) .reject ?_ rfl (.reject h.myAddress rfl rfl) rfl
          rw [wires_dispatch hp _ _ hface]
          exact congrArg (· ++ _) (face_wires s)
  | _ =>
      rw [hstate] at hlink
      refine h.ignored hp ?_ ?_ ?_ ?_
      · simp [resets, hu]
      · simp [acks, hstate]
      · simp [LinkView.next, hstate, Frame.arriving, hu, hpf]
      · simp only [handle, hlink, linkOf, listen, Msg.command?]

omit hp in
theorem handle_ack (hR : R.modulus = mod8) (hup : x.link = .up) (r : Nat) (poll : Bool) :
    handle R x (.ack r poll) =
      if Serial.advance mod8 x.acked (r % mod8) ≤ x.sent.length then
        x.settle (Serial.advance mod8 x.acked (r % mod8))
      else (x.goto .broken).say .reject := by
  simp only [handle, hup, handleAck, hR]
  rfl

theorem simulates_ack (hR : R.modulus = mod8) (h : Reflects st peer bound s x) {f : Frame} {kind r : Nat}
    {poll : Bool} (hctrl : f.ctrl = sCtrl kind r poll) : Simulates st peer bound R s x f (.ack r poll) := by
  obtain ⟨hs, -, hnr, hpf⟩ := sCtrl_fields kind r poll
  have hkind : isUframe (sCtrl kind r poll) = false ∧ isIframe (sCtrl kind r poll) = false := by
    rcases ctrl_cases (sCtrl kind r poll) with ⟨-, hs', -⟩ | ⟨hi, -, hu⟩ | ⟨-, hs', -⟩
    · exact absurd (hs.symm.trans hs') (by decide)
    · exact ⟨hu, hi⟩
    · exact absurd (hs.symm.trans hs') (by decide)
  obtain ⟨hu, hi⟩ := hkind
  rw [← hctrl] at hs hnr hpf hu hi
  have hlink := h.link
  have harriving : f.arriving.ctrl = f.ctrl := rfl
  cases hstate : s.currentState with
  | disconnected | connecting | frmrError =>
      rw [hstate] at hlink
      refine h.ignored hp ?_ ?_ ?_ ?_
      · simp [resets, hu]
      · simp [acks, hstate]
      · simp [LinkView.next, hstate, harriving, hu]
      · simp only [handle, hlink, linkOf, listen, Msg.command?]
  | disconnecting =>
      rw [hstate] at hlink
      have hresets : resets s f.ctrl = false := by simp [resets, hu]
      have hacks : acks s f.ctrl = false := by simp [acks, hstate]
      cases poll with
      | false =>
          refine h.ignored hp hresets hacks ?_ ?_
          · simp [LinkView.next, hstate, harriving, hu, hpf]
          · simp [handle, hlink, linkOf, listen, Msg.command?]
      | true =>
          have hhandle : handle R x (.ack r true) = x.say (.refuse x.heard) := by
            simp only [handle, hlink, linkOf, if_true]
          refine h.answering hp false s.currentState _ hacks hresets ?_
            (LinkView.face_sayDm st (linkView s) true) ?_ (said_answer h (Or.inr ⟨rfl, rfl⟩))
          · simp [LinkView.next, hstate, harriving, hu, hpf]
          · rw [← h.link]
            exact hhandle
  | connected =>
      rw [hstate] at hlink
      have hiff := h.nrValid_iff (show r % mod8 < mod8 from Nat.mod_lt _ (by decide))
      have hnext : (linkView s).next st s f.arriving =
          let v := ((linkView s).busy st (ctrlS f.ctrl)).poll st (isCmd s f.address && poll)
          if ¬nrValid s (r % 8) then v.reject st (frmrFrame s f.ctrl frmrZ)
          else v.tell (opened st s (r % 8)) := by
        have haddr : f.arriving.address = f.address := rfl
        simp only [LinkView.next, hstate, harriving, haddr, hu, hi, hnr, hpf, Bool.false_eq_true, if_false]
      have hpolled := LinkView.face_poll st ((linkView s).busy st (ctrlS f.ctrl)) (isCmd s f.address && poll)
      rw [LinkView.face_busy] at hpolled
      generalize ((linkView s).busy st (ctrlS f.ctrl)).poll st (isCmd s f.address && poll) = v at hnext hpolled
      have hsilent : face s = { face s with vr := x.got.length % mod8, got := x.got } :=
        Face.ext rfl rfl rfl h.vr h.got.symm rfl
      by_cases hpoll : (isCmd s f.address && poll) = true
      · rw [if_pos hpoll] at hpolled
        obtain rfl : poll = true := by simpa using (Bool.and_eq_true _ _ ▸ hpoll).2
        have hanswer : Means st.config.address peer ⟨s.myAddress, sCtrl sRr x.got.length true, []⟩
            x.heard (.ack x.got.length true) := .ack sRr _ true (Or.inl h.myAddress) rfl rfl
        have hvr : s.vr = (face s).got.length % mod8 := h.vr.trans (by rw [h.got]; rfl)
        have hgot : (face s).got = x.got := h.got.symm
        have hsaid : (face s).wires ++ [Frame.wire st.crc ⟨s.myAddress, sCtrl sRr s.vr true, []⟩] =
            wires s.trace ++ [Frame.wire st.crc ⟨s.myAddress, sCtrl sRr x.got.length true, []⟩] := by
          rw [face_wires, h.vr, sCtrl_mod]
        by_cases hvalid : nrValid s (r % 8) = true
        · rw [if_neg (not_not.mpr hvalid)] at hnext
          have hface := congrArg LinkView.face hnext
          rw [LinkView.face_tell, hpolled] at hface
          have hhandle : handle R (x.say (.ack x.got.length true)) (.ack r true) =
              (x.say (.ack x.got.length true)).settle (Serial.advance mod8 x.acked (r % mod8)) := by
            rw [handle_ack (x := x.say (.ack x.got.length true)) hR hlink]
            exact if_pos (hiff.mp hvalid)
          refine ⟨_, ?_, ?_, Hears.answer hlink⟩
          · refine h.numbered hp hstate f.arriving hu hnr hvalid hface hstate rfl rfl hvr ?_
            have heta (a : Nat) : (x.say (.ack x.got.length true)).settle a =
                { x with acked := a, got := (face s).got, out := x.out ++ [.ack x.got.length true] } := by
              rw [hgot]
              rfl
            rw [hhandle]
            exact heta _
          · rw [hhandle]
            refine .one rfl rfl _ _ ?_ rfl hanswer rfl
            rw [wires_dispatch hp _ _ hface]
            exact hsaid
        · rw [if_pos hvalid] at hnext
          have hface := congrArg LinkView.face hnext
          rw [LinkView.face_reject, hpolled] at hface
          have hhandle : handle R (x.say (.ack x.got.length true)) (.ack r true) =
              ((x.say (.ack x.got.length true)).goto .broken).say .reject := by
            rw [handle_ack (x := x.say (.ack x.got.length true)) hR hlink]
            exact if_neg (mt hiff.mpr hvalid)
          refine ⟨_, ?_, ?_, Hears.answer hlink⟩
          · rw [hhandle]
            exact h.invalid hp f.arriving hu hnr hvalid hface rfl rfl rfl rfl rfl _
          · rw [hhandle]
            have hfrmr : Means st.config.address peer (frmrFrame s f.ctrl frmrZ) x.heard .reject :=
              .reject h.myAddress rfl rfl
            refine ⟨rfl, rfl, [_, _], [_, _], ?_, ?_, .cons ⟨hanswer, rfl⟩ (.cons ⟨hfrmr, rfl⟩ .nil)⟩
            · rw [wires_dispatch hp _ _ hface]
              exact (congrArg (· ++ [(frmrFrame s f.ctrl frmrZ).wire st.crc]) hsaid).trans
                (List.append_assoc _ _ _)
            · exact List.append_assoc x.out [.ack x.got.length true] [.reject]
      · rw [if_neg hpoll] at hpolled
        by_cases hvalid : nrValid s (r % 8) = true
        · rw [if_neg (not_not.mpr hvalid)] at hnext
          refine h.acknowledging hp hstate rfl hu hnr hvalid hnext x.got (Or.inl ?_) ?_
          · rw [← hsilent]
            exact hpolled
          · rw [handle_ack hR hlink]
            refine (if_pos (hiff.mp hvalid)).trans ?_
            rfl
        · rw [if_pos hvalid] at hnext
          have hface := congrArg LinkView.face hnext
          rw [LinkView.face_reject, hpolled] at hface
          have hhandle : handle R x (.ack r poll) = (x.goto .broken).say .reject := by
            rw [handle_ack hR hlink]
            exact if_neg (mt hiff.mpr hvalid)
          refine ⟨_, ?_, ?_, Hears.recv x _⟩
          · rw [hhandle]
            exact h.invalid hp f.arriving hu hnr hvalid hface rfl rfl rfl rfl rfl (x.out ++ [.reject])
          · rw [hhandle]
            refine .one rfl rfl (frmrFrame s f.ctrl frmrZ) .reject ?_ rfl (.reject h.myAddress rfl rfl) rfl
            rw [wires_dispatch hp _ _ hface]
            exact congrArg (· ++ _) (face_wires s)

/-- Whatever a frame means, the station makes of it what its peer makes of the message. -/
theorem simulates (hR : R.modulus = mod8) (h : Reflects st peer bound s x) {f : Frame} {n : Nat}
    {m : Msg (List UInt8)} (hm : Means peer st.config.address f n m) :
    Simulates st peer bound R s x f m := by
  cases hm with
  | data k r haddr hctrl => exact simulates_data hp hR h hctrl
  | ack kind r poll haddr hctrl hinfo => exact simulates_ack hp hR h hctrl
  | setup heq =>
      rw [heq]
      exact simulates_setup hp h n
  | release heq =>
      rw [heq]
      exact simulates_release hp h n
  | accept heq =>
      rw [heq]
      exact simulates_accept hp h n
  | refuse heq =>
      rw [heq]
      exact simulates_refuse hp h n
  | reject haddr hctrl hinfo => exact simulates_reject hp h hctrl

end Hear

end AtcHdlc
