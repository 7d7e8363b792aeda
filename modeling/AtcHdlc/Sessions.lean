import AtcHdlc.Chunking
import AtcHdlc.Wakeup

/-! What a new session inherits. Two contexts that take up a session with the same frame are coupled: they
agree on whatever decides what they do from then on, and on what they do. `reset_state` forgets three
things too few, a retransmission that is armed, the fields of the last FRMR and the transmit checksum; the
coupling holds as long as none of them is used. -/

namespace AtcHdlc

/-- A context of a station between two calls or within a received chunk. -/
def Midway (st : Station) (mem : Memory) (s : Ctx) : Prop :=
  ∃ t bytes, Reachable st mem t ∧ s = rxBytes st t bytes

/-- The same fields of the parser, and the same octets of the frame that it is reading. -/
structure SameParser (s t : Ctx) : Prop where
  rxState : s.rxState = t.rxState
  rxIndex : s.rxIndex = t.rxIndex
  rxCrc : s.rxCrc = t.rxCrc
  rxBuffer : ∀ i < t.rxIndex, s.rxBuffer i = t.rxBuffer i

/-- The same addresses, parser and link state. -/
structure Alike (s t : Ctx) : Prop where
  currentState : s.currentState = t.currentState
  myAddress : s.myAddress = t.myAddress
  peerAddress : s.peerAddress = t.peerAddress
  parser : SameParser s t

/-- A frame makes CONN_REQ or CONN_ACCEPTED fire. -/
def establishes (s : Ctx) (ctrl : UInt8) : Bool :=
  isUframe ctrl &&
    match s.currentState, uCmd ctrl with
    | .disconnected, .sabm | .connected, .sabm | .frmrError, .sabm => true
    | .connecting, .ua => ctrlPf ctrl
    | _, _ => false

theorem establishes_cases {s : Ctx} {ctrl : UInt8} (h : establishes s ctrl = true) :
    (isUframe ctrl = true ∧ uCmd ctrl = .sabm ∧
      (s.currentState = .disconnected ∨ s.currentState = .connected ∨ s.currentState = .frmrError)) ∨
    (isUframe ctrl = true ∧ uCmd ctrl = .ua ∧ ctrlPf ctrl = true ∧ s.currentState = .connecting) := by
  obtain ⟨hu, h⟩ := Bool.and_eq_true_iff.mp h
  cases hstate : s.currentState <;> cases hcmd : uCmd ctrl <;> simp_all

/-- What reaches the line and the application. -/
def outward (trace : List Obs) : List Obs :=
  trace.filter fun
    | .send _ _ | .data _ | .event _ => true
    | _ => false

/-- What a station does in sight of others after the closing flag of a frame, while it reads the rest of
the chunk and then obeys some calls. -/
def outputs (st : Station) (s : Ctx) (rest : List UInt8) (calls : List Call) : List Obs :=
  outward ((calls.foldl (Call.run st) (retransmitIfPending st (rxBytes st s (flag :: rest)))).trace.drop
    (rxByte st s flag).trace.length)

/-- Whether a frame has been begun since the last `reset_state`. -/
def begun (trace : List Obs) : Bool :=
  trace.foldl (fun b o => match o with
    | .reset => false
    | .frame _ _ _ => true
    | _ => b) false

theorem begun_append (trace : List Obs) {os : List Obs} (h : ∀ o ∈ os, Plain o) :
    begun (trace ++ os) = begun trace := by
  rw [begun, List.foldl_append]
  refine foldl_plain (fun b o ho => ?_) _ h
  cases o with
  | reset | received | frame => exact ho.elim
  | _ => rfl

theorem begun_reset (trace : List Obs) : begun (trace ++ [.reset]) = false := by
  rw [begun, List.foldl_append]
  rfl

section Parser

variable {st : Station}

theorem SameParser.rxRestart (s t : Ctx) (state : RxState) :
    SameParser (rxRestart s state) (rxRestart t state) :=
  ⟨rfl, rfl, rfl, fun i hi => absurd hi (Nat.not_lt_zero i)⟩

theorem SameParser.stored {s t : Ctx} (h : SameParser s t) (octet : UInt8) :
    SameParser (stored st s octet) (stored st t octet) := by
  have hread : ∀ i < t.rxIndex + 1, Function.update s.rxBuffer s.rxIndex octet i =
      Function.update t.rxBuffer t.rxIndex octet i := by
    intro i hi
    rw [h.rxIndex]
    rcases Nat.lt_or_ge i t.rxIndex with hlt | hge
    · rw [Function.update_of_ne (by omega), Function.update_of_ne (by omega), h.rxBuffer i hlt]
    · have heq : i = t.rxIndex := by omega
      rw [heq, Function.update_self, Function.update_self]
  refine ⟨h.rxState, congrArg (· + 1) h.rxIndex, ?_, hread⟩
  simp only [AtcHdlc.stored]
  rw [hread _ (by rw [h.rxIndex]; omega), h.rxIndex, h.rxCrc]

theorem SameParser.rxStore {s t : Ctx} (h : SameParser s t) (hmy : s.myAddress = t.myAddress)
    (hpeer : s.peerAddress = t.peerAddress) (octet : UInt8) :
    SameParser (rxStore st s octet) (rxStore st t octet) := by
  have hstored := @SameParser.stored st s t h octet
  rw [rxStore_eq, rxStore_eq, h.rxIndex, hmy, hpeer]
  split_ifs
  · exact .rxRestart s t .hunt
  · exact ⟨rfl, hstored.rxIndex, hstored.rxCrc, hstored.rxBuffer⟩
  · exact .rxRestart _ _ .hunt
  · exact hstored

/-- An octet leaves the parsers the same. -/
theorem SameParser.rxByte {s t : Ctx} (h : SameParser s t) (hmy : s.myAddress = t.myAddress)
    (hpeer : s.peerAddress = t.peerAddress) (byte : UInt8) :
    SameParser (rxByte st s byte) (rxByte st t byte) := by
  by_cases hbyte : byte = flag
  · subst hbyte
    rcases @rxByte_flag_cases st s with hs | ⟨_, _, _, hs⟩ <;>
      rcases @rxByte_flag_cases st t with ht | ⟨_, _, _, ht⟩ <;>
        rw [hs, ht] <;> exact .rxRestart _ _ .addr
  · simp only [AtcHdlc.rxByte, if_neg hbyte, h.rxState]
    split_ifs
    · exact h
    · exact ⟨rfl, h.rxIndex, h.rxCrc, h.rxBuffer⟩
    · have hdata : SameParser { s with rxState := .data } { t with rxState := .data } :=
        ⟨rfl, h.rxIndex, h.rxCrc, h.rxBuffer⟩
      exact hdata.rxStore hmy hpeer _
    · exact h.rxStore hmy hpeer byte

/-- The parsers complete the same frame. -/
theorem SameParser.completed {s t : Ctx} (h : SameParser s t) (byte : UInt8) :
    completed s byte = completed t byte := by
  have hread (start n : Nat) (hn : start + n ≤ t.rxIndex) : readBuffer s start n = readBuffer t start n := by
    apply List.map_congr_left
    intro i hi
    rw [List.mem_range] at hi
    exact h.rxBuffer _ (by omega)
  unfold AtcHdlc.completed
  extract_lets dlen dlen'
  have hdlen : dlen = dlen' := congrArg (· - fcsLen) h.rxIndex
  rw [h.rxState, h.rxIndex, h.rxCrc, hdlen]
  by_cases hskip : byte ≠ flag ∨ t.rxState = .hunt ∨ t.rxIndex < minFrameLen
  · rw [if_pos (by tauto), if_pos (by tauto)]
  · have hmin : 4 ≤ t.rxIndex := Nat.le_of_not_lt fun hlt => hskip (Or.inr (Or.inr hlt))
    have hshort : dlen' + 2 = t.rxIndex := by
      simp only [dlen', fcsLen]
      omega
    rw [h.rxBuffer dlen' (by omega), h.rxBuffer (dlen' + 1) (by omega), h.rxBuffer 0 (by omega),
      h.rxBuffer 1 (by omega)]
    by_cases hlong : dlen' > addrLen + ctrlLen
    · simp only [addrLen, ctrlLen] at hlong ⊢
      rw [hread _ _ (by omega)]
    · simp only [if_neg hlong]

end Parser

/-! ### The coupling -/

/-- Two contexts that are bound to do the same from the traces `a` and `b` on. The contents of the slots
matter as far as they are filled, the number that a retransmission starts from while it is armed, the FRMR
fields and the checksum once they have been written since the last `reset_state`. -/
structure Coupled (st : Station) (a b : List Obs) (s t : Ctx) : Prop where
  control : controlView s = controlView t
  n2 : s.n2 = t.n2
  cursor : s.txNextSlot = t.txNextSlot
  t1Active : s.t1Active = t.t1Active
  pending : s.retransmitPending = t.retransmitPending
  armed : s.retransmitPending = true → s.retransmitFrom = t.retransmitFrom
  lens : ∀ w ∈ st.txWindow, ∀ i < w.slotCount, s.slotLens i = t.slotLens i
  slots : ∀ w ∈ st.txWindow, ∀ i < w.slotCount, ∀ k < s.slotLens i,
    s.slots (slotOffset w i + k) = t.slots (slotOffset w i + k)
  crc : begun s.trace = true → s.txCrc = t.txCrc
  frmr : frmrSent s.trace = true → s.frmrCtrl = t.frmrCtrl ∧ s.frmrFlags = t.frmrFlags
  rxState : s.rxState = t.rxState
  rxIndex : s.rxIndex = t.rxIndex
  rxCrc : s.rxCrc = t.rxCrc
  rxBuffer : ∀ i < t.rxIndex, s.rxBuffer i = t.rxBuffer i
  trace : ∃ x, s.trace = a ++ x ∧ t.trace = b ++ x

namespace Coupled

variable {st : Station} {a b : List Obs} {s t : Ctx}

theorem moment (h : Coupled st a b s t) : s.moment = t.moment :=
  congrArg (fun v : ControlView => (⟨v.currentState, v.remoteBusy, v.localBusy⟩ : Moment)) h.control

theorem vs (h : Coupled st a b s t) : s.vs = t.vs := congrArg ControlView.vs h.control

theorem va (h : Coupled st a b s t) : s.va = t.va := congrArg ControlView.va h.control

theorem vr (h : Coupled st a b s t) : s.vr = t.vr := congrArg ControlView.vr h.control

theorem t2Active (h : Coupled st a b s t) : s.t2Active = t.t2Active :=
  congrArg ControlView.t2Active h.control

theorem currentState (h : Coupled st a b s t) : s.currentState = t.currentState :=
  congrArg ControlView.currentState h.control

theorem myAddress (h : Coupled st a b s t) : s.myAddress = t.myAddress :=
  congrArg ControlView.myAddress h.control

theorem peerAddress (h : Coupled st a b s t) : s.peerAddress = t.peerAddress :=
  congrArg ControlView.peerAddress h.control

theorem parser (h : Coupled st a b s t) : SameParser s t := ⟨h.rxState, h.rxIndex, h.rxCrc, h.rxBuffer⟩

theorem withParser (h : Coupled st a b s t) {s' t' : Ctx} (hparser : SameParser s' t') :
    Coupled st a b (s.withParser s') (t.withParser t') :=
  { h with
    rxState := hparser.rxState, rxIndex := hparser.rxIndex, rxCrc := hparser.rxCrc
    rxBuffer := hparser.rxBuffer }

theorem logs {os : List Obs} (hos : ∀ o ∈ os, Plain o) : Keeping (Coupled st a b) fun s => s.logs os := by
  intro s t h
  obtain ⟨x, hs, ht⟩ := h.trace
  have hcrc : begun (s.trace ++ os) = true → s.txCrc = t.txCrc := by
    rw [begun_append _ hos]
    exact h.crc
  have hfrmr : frmrSent (s.trace ++ os) = true → s.frmrCtrl = t.frmrCtrl ∧ s.frmrFlags = t.frmrFlags := by
    rw [frmrSent_append _ hos]
    exact h.frmr
  refine { h with crc := hcrc, frmr := hfrmr, trace := ⟨x ++ os, ?_, ?_⟩ }
  · rw [← List.append_assoc, ← hs]
    rfl
  · rw [← List.append_assoc, ← ht]
    rfl

theorem log {o : Obs} (ho : Plain o) : Keeping (Coupled st a b) fun s => s.log o :=
  logs fun o' ho' => by rwa [List.mem_singleton.mp ho']

theorem t1Start : Keeping (Coupled st a b) (t1Start st) := by
  intro s t h
  have hobs : ∀ o ∈ if st.platform.t1Start then [Obs.t1Start st.config.t1Ms] else [], Plain o := by
    split_ifs <;> simp [Plain]
  have hlogged := logs hobs h
  exact { hlogged with t1Active := rfl }

theorem t1Stop : Keeping (Coupled st a b) (t1Stop st) := by
  intro s t h
  have hobs : ∀ o ∈ if s.t1Active && st.platform.t1Stop then [Obs.t1Stop] else [], Plain o := by
    split_ifs <;> simp [Plain]
  have hlogged := logs hobs h
  unfold AtcHdlc.t1Stop
  rw [← h.t1Active]
  exact { hlogged with t1Active := rfl }

theorem t2Start : Keeping (Coupled st a b) (t2Start st) := by
  intro s t h
  have hobs : ∀ o ∈ if st.platform.t2Start then [Obs.t2Start st.config.t2Ms] else [], Plain o := by
    split_ifs <;> simp [Plain]
  have hlogged := logs hobs h
  exact { hlogged with control := congrArg (fun v : ControlView => { v with t2Active := true }) h.control }

theorem t2Stop : Keeping (Coupled st a b) (t2Stop st) := by
  intro s t h
  have hobs : ∀ o ∈ if s.t2Active && st.platform.t2Stop then [Obs.t2Stop] else [], Plain o := by
    split_ifs <;> simp [Plain]
  have hlogged := logs hobs h
  unfold AtcHdlc.t2Stop
  rw [← h.t2Active]
  exact { hlogged with control := congrArg (fun v : ControlView => { v with t2Active := false }) h.control }

theorem setVs (h : Coupled st a b s t) (vs : Nat) : Coupled st a b { s with vs := vs } { t with vs := vs } :=
  { h with control := congrArg (fun v : ControlView => { v with vs := vs }) h.control }

/-- The mark of a frame: from here on the checksum is the same, and the FRMR fields have to be if the
frame shows them. -/
theorem begin (h : Coupled st a b s t) (address ctrl : UInt8) (crc : UInt16)
    (hfrmr : (ctrl == uCtrl uFrmr false) = true → s.frmrCtrl = t.frmrCtrl ∧ s.frmrFlags = t.frmrFlags) :
    Coupled st a b { s.log (.frame address ctrl s.moment) with txCrc := crc }
      { t.log (.frame address ctrl t.moment) with txCrc := crc } := by
  obtain ⟨x, hs, ht⟩ := h.trace
  refine { h with crc := fun _ => rfl, frmr := fun hsent => ?_, trace := ?_ }
  · have hstep : frmrSent (s.trace ++ [.frame address ctrl s.moment]) =
        (frmrSent s.trace || ctrl == uCtrl uFrmr false) := by
      rw [frmrSent, List.foldl_append]
      rfl
    have hsent' := hstep.symm.trans hsent
    rcases Bool.or_eq_true_iff.mp hsent' with hbefore | hctrl
    · exact h.frmr hbefore
    · exact hfrmr hctrl
  · refine ⟨x ++ [.frame address ctrl s.moment], ?_, ?_⟩
    · rw [← List.append_assoc, ← hs]
      rfl
    · rw [← List.append_assoc, ← ht, h.moment]
      rfl

theorem putFrame (h : Coupled st a b s t) (f : Frame)
    (hfrmr : (f.ctrl == uCtrl uFrmr false) = true → s.frmrCtrl = t.frmrCtrl ∧ s.frmrFlags = t.frmrFlags) :
    Coupled st a b (s.put st f) (t.put st f) := by
  have hput (u : Ctx) : u.put st f =
      { u.log (.frame f.address f.ctrl u.moment) with txCrc := f.fcs st.crc }.logs (f.obs st.crc u.moment).tail := by
    simp [Ctx.put, Ctx.log, Ctx.logs, Frame.obs]
  have htail : (f.obs st.crc s.moment).tail = (f.obs st.crc t.moment).tail := rfl
  rw [hput s, hput t, ← htail]
  exact logs (fun o ho => plain_of_mem_sends ho) (h.begin f.address f.ctrl (f.fcs st.crc) hfrmr)

theorem put (f : Frame) (hf : (f.ctrl == uCtrl uFrmr false) = false) :
    Keeping (Coupled st a b) fun s => s.put st f :=
  fun _ _ h => h.putFrame f fun hctrl => absurd (hf.symm.trans hctrl) (by decide)

theorem retransmitFrmr (h : Coupled st a b s t)
    (hfrmr : s.frmrCtrl = t.frmrCtrl ∧ s.frmrFlags = t.frmrFlags) :
    Coupled st a b (retransmitFrmr st s) (retransmitFrmr st t) := by
  have hinfo : frmrInfo s = frmrInfo t := by
    rw [frmrInfo, frmrInfo, hfrmr.1, hfrmr.2, h.vr, h.vs]
  rw [retransmitFrmr_eq, retransmitFrmr_eq, hinfo, h.myAddress]
  exact h.putFrame _ fun _ => hfrmr

end Coupled

section Reset

variable {st : Station}

/-- The two timer callbacks that `reset_state` can make. -/
def stopObs (st : Station) (s : Ctx) : List Obs :=
  (if s.t1Active && st.platform.t1Stop then [.t1Stop] else []) ++
    if s.t2Active && st.platform.t2Stop then [.t2Stop] else []

theorem resetState_eq (s : Ctx) : resetState st s = { s with
    vs := 0, vr := 0, va := 0, txNextSlot := 0, rejException := false, remoteBusy := false
    localBusy := false, n2 := 0, t1Active := false, t2Active := false
    slotLens := (clearSlotLens st s).slotLens, trace := s.trace ++ [.reset] ++ stopObs st s } := by
  have hstep : resetState st s = t2Stop st (t1Stop st (clearState st s)) := rfl
  have hlens : (clearSlotLens st { s.log .reset with vs := 0, vr := 0, va := 0, txNextSlot := 0 }).slotLens =
      (clearSlotLens st s).slotLens := by
    unfold clearSlotLens
    cases st.txWindow <;> rfl
  rw [hstep, clearState, clearSlotLens_eq, hlens, stopObs, ← List.append_assoc]
  rfl

theorem plain_stopObs (s : Ctx) : ∀ o ∈ stopObs st s, Plain o := by
  unfold stopObs
  split_ifs <;> simp [Plain]

theorem clearSlotLens_of_lt {w : TxWindow} (hw : st.txWindow = some w) (s : Ctx) {i : Nat}
    (hi : i < w.slotCount) : (clearSlotLens st s).slotLens i = 0 := by
  simp only [clearSlotLens, hw]
  exact if_pos hi

/-- Two contexts with the same link state, the same addresses and the same armed retransmission are
coupled by `reset_state`. -/
theorem Coupled.of_reset {a b : List Obs} {s t : Ctx} (h : Alike s t)
    (hpending : s.retransmitPending = t.retransmitPending)
    (harmed : s.retransmitPending = true → s.retransmitFrom = t.retransmitFrom)
    (htrace : ∃ x, s.trace ++ [.reset] ++ stopObs st s = a ++ x ∧ t.trace ++ [.reset] ++ stopObs st t = b ++ x) :
    Coupled st a b (resetState st s) (resetState st t) := by
  have hbegun : begun (s.trace ++ [.reset] ++ stopObs st s) = false := by
    rw [begun_append _ (plain_stopObs s), begun_reset]
  have hsent : frmrSent (s.trace ++ [.reset] ++ stopObs st s) = false := by
    rw [frmrSent_append _ (plain_stopObs s), frmrSent_reset]
  have hlens : ∀ w ∈ st.txWindow, ∀ i < w.slotCount, ∀ u : Ctx, (clearSlotLens st u).slotLens i = 0 :=
    fun w hw i hi u => clearSlotLens_of_lt hw u hi
  rw [resetState_eq s, resetState_eq t]
  refine ⟨?_, rfl, rfl, rfl, hpending, harmed, ?_, ?_, ?_, ?_, h.parser.rxState, h.parser.rxIndex,
    h.parser.rxCrc, h.parser.rxBuffer, htrace⟩
  · simp only [controlView, h.currentState, h.myAddress, h.peerAddress]
  · intro w hw i hi
    exact (hlens w hw i hi s).trans (hlens w hw i hi t).symm
  · intro w hw i hi k hk
    rw [hlens w hw i hi s] at hk
    exact absurd hk (Nat.not_lt_zero k)
  · exact fun h => absurd (hbegun.symm.trans h) (by decide)
  · exact fun h => absurd (hsent.symm.trans h) (by decide)

theorem Coupled.reset {a b : List Obs} : Keeping (Coupled st a b) (resetState st) := by
  intro s t h
  obtain ⟨x, hs, ht⟩ := h.trace
  have hstop : stopObs st s = stopObs st t := by rw [stopObs, stopObs, h.t1Active, h.t2Active]
  refine .of_reset ⟨h.currentState, h.myAddress, h.peerAddress, h.parser⟩ h.pending h.armed
    ⟨x ++ ([.reset] ++ stopObs st t), ?_, ?_⟩
  · rw [hstop, hs]
    simp only [List.append_assoc]
  · rw [ht]
    simp only [List.append_assoc]

/-- The coupling is kept by whatever a frame does. -/
theorem coupled_congruence (hp : st.platform.Passive) (a b : List Obs) :
    Congruence st (Coupled st a b) where
  control h := h.control
  put := Coupled.put
  t1Start := Coupled.t1Start
  t1Stop := Coupled.t1Stop
  t2Start := Coupled.t2Start
  t2Stop := Coupled.t2Stop
  data payload := by
    simp only [onData_passive hp]
    exact Coupled.logs (by unfold dataObs; split_ifs <;> simp [Plain])
  event event := by
    simp only [onEvent_passive hp]
    exact Coupled.logs (by unfold eventObs; split_ifs <;> simp [Plain])
  dispatch r := Coupled.log trivial
  link state := fun _ _ h =>
    { h with control := congrArg (fun v : ControlView => { v with currentState := state }) h.control }
  reset := Coupled.reset
  ack nr := fun _ _ h =>
    { Coupled.log (o := .acked nr) trivial h with
      n2 := rfl, control := congrArg (fun v : ControlView => { v with va := nr }) h.control }
  nullWindow := Coupled.log trivial
  receive payload := by
    intro s t h
    obtain ⟨x, hs, ht⟩ := h.trace
    have hkept : begun (s.trace ++ [.received payload]) = begun s.trace := by
      rw [begun, List.foldl_append]
      rfl
    have hkeptFrmr : frmrSent (s.trace ++ [.received payload]) = frmrSent s.trace := by
      rw [frmrSent, List.foldl_append]
      rfl
    refine { h with
      control := congrArg (fun v : ControlView => { v with vr := (v.vr + 1) % mod8, rejException := false })
        h.control
      crc := fun hbegun => h.crc (hkept.symm.trans hbegun)
      frmr := fun hsent => h.frmr (hkeptFrmr.symm.trans hsent)
      trace := ⟨x ++ [.received payload], ?_, ?_⟩ }
    · rw [← List.append_assoc, ← hs]
      rfl
    · rw [← List.append_assoc, ← ht]
      rfl
  rejException := fun _ _ h =>
    { h with control := congrArg (fun v : ControlView => { v with rejException := true }) h.control }
  remoteBusy busy := fun _ _ h =>
    { h with control := congrArg (fun v : ControlView => { v with remoteBusy := busy }) h.control }
  arm fromSeq := fun _ _ h => { h with pending := rfl, armed := fun _ => rfl }
  frmr ctrl flags := by
    intro s t h
    have hnoted : Coupled st a b { s with frmrCtrl := ctrl, frmrFlags := flags }
        { t with frmrCtrl := ctrl, frmrFlags := flags } := { h with frmr := fun _ => ⟨rfl, rfl⟩ }
    exact (Coupled.t2Stop hnoted).retransmitFrmr ⟨rfl, rfl⟩

end Reset

section Chunk

variable {st : Station} {a b : List Obs}

theorem iCtrl_ne_frmr (ns nr : Nat) (pf : Bool) : (iCtrl ns nr pf == uCtrl uFrmr false) = false := by
  rw [beq_eq_false_iff_ne]
  intro heq
  have hi := (iCtrl_kind ns nr pf).1
  rw [heq] at hi
  exact absurd hi (by decide)

theorem Coupled.rxByte (hp : st.platform.Passive) (byte : UInt8) :
    Keeping (Coupled st a b) fun s => rxByte st s byte := by
  intro s t h
  have hparser : SameParser (AtcHdlc.rxByte st s byte) (AtcHdlc.rxByte st t byte) :=
    h.parser.rxByte h.myAddress h.peerAddress byte
  have hs := rxByte_completed st s byte
  have ht := rxByte_completed st t byte
  rw [h.parser.completed byte] at hs
  simp only
  cases hc : completed t byte with
  | none =>
      rw [hc] at hs ht
      rw [hs, ht]
      exact h.withParser hparser
  | some f =>
      rw [hc] at hs ht
      rw [hs, ht]
      have hdispatched := (coupled_congruence hp a b).dispatchFrame f h
      exact hdispatched.withParser (.rxRestart _ _ .addr)

theorem Coupled.rxBytes (hp : st.platform.Passive) (bytes : List UInt8) :
    Keeping (Coupled st a b) fun s => rxBytes st s bytes := by
  induction bytes with
  | nil => exact .id
  | cons byte bytes ih => exact ih.comp (Coupled.rxByte hp byte)

theorem Coupled.readSlot {w : TxWindow} (hw : st.txWindow = some w) {s t : Ctx} (h : Coupled st a b s t)
    {slot : Nat} (hslot : slot < w.slotCount) : readSlot w s slot = readSlot w t slot := by
  unfold AtcHdlc.readSlot
  rw [← h.lens w hw slot hslot]
  apply List.map_congr_left
  intro k hk
  exact h.slots w hw slot hslot k (List.mem_range.mp hk)

/-- Slots of the window are resent alike. -/
theorem Coupled.retransmitLoop {w : TxWindow} (hw : st.txWindow = some w) (endVs fuel : Nat) {slotIdx : Nat}
    (hslot : slotIdx < w.slotCount) : Keeping (Coupled st a b) (retransmitLoop st w endVs fuel slotIdx) := by
  induction fuel generalizing slotIdx with
  | zero => exact .id
  | succ fuel ih =>
      intro s t h
      simp only [AtcHdlc.retransmitLoop, frameSend_octets]
      by_cases hend : s.vs = endVs
      · rw [if_pos hend, if_pos (h.vs.symm.trans hend)]
        exact h
      · rw [if_neg hend, if_neg (h.vs ▸ hend)]
        have hlogged : Coupled st a b (s.log (.slotRead slotIdx)) (t.log (.slotRead slotIdx)) :=
          Coupled.log (o := .slotRead slotIdx) trivial h
        have hput := (@Coupled.put st a b)
          ⟨s.peerAddress, iCtrl s.vs s.vr false, AtcHdlc.readSlot w s slotIdx⟩ (iCtrl_ne_frmr s.vs s.vr false)
          hlogged
        refine ih (Nat.mod_lt _ w.slotCount_pos) ?_
        rw [← hlogged.peerAddress, ← hlogged.vs, ← hlogged.vr, ← hlogged.readSlot hw hslot]
        exact { hput with
          control := congrArg (fun v : ControlView => { v with vs := (v.vs + 1) % mod8 }) hput.control }

/-- The slot with which a retransmission begins. -/
def firstSlot (w : TxWindow) (s : Ctx) : Nat :=
  let outstanding := u8 (((s.vs : Int) - s.retransmitFrom + mod8).tmod mod8)
  u8 (((s.txNextSlot : Int) + w.slotCount - outstanding).tmod w.slotCount)

/-- The retransmission at the end of a chunk, if there is one, begins with a slot of the window. -/
def BeginsInside (st : Station) (s : Ctx) (bytes : List UInt8) : Prop :=
  (rxBytes st s bytes).retransmitPending = true → ∀ w ∈ st.txWindow, firstSlot w (rxBytes st s bytes) < w.slotCount

instance (st : Station) (s : Ctx) (bytes : List UInt8) : Decidable (BeginsInside st s bytes) :=
  inferInstanceAs (Decidable (_ → ∀ w ∈ st.txWindow, _))

theorem Coupled.retransmitIfPending {s t : Ctx} (h : Coupled st a b s t)
    (hinside : s.retransmitPending = true → ∀ w ∈ st.txWindow, firstSlot w s < w.slotCount) :
    Coupled st a b (retransmitIfPending st s) (retransmitIfPending st t) := by
  unfold AtcHdlc.retransmitIfPending
  by_cases hpending : s.retransmitPending = true
  · rw [if_pos hpending, if_pos (h.pending.symm.trans hpending)]
    cases hw : st.txWindow with
    | none => exact Coupled.log (o := .nullWindow) trivial h
    | some w =>
        have hslot := hinside hpending w hw
        have hfrom := h.armed hpending
        simp only [retransmitOutstanding]
        rw [← hfrom, ← h.vs, ← h.cursor]
        refine Coupled.t1Start (Coupled.retransmitLoop hw s.vs 8 hslot ?_)
        exact { h with
          pending := rfl
          cursor := rfl
          armed := fun hfalse => absurd hfalse Bool.false_ne_true
          control := congrArg (fun v : ControlView => { v with vs := s.retransmitFrom }) h.control }
  · rw [if_neg hpending, if_neg (h.pending ▸ hpending)]
    exact h

/-- A call that does not use what `reset_state` fails to forget: T1 resends an FRMR only in a session in
which one has been sent, a frame is ended only after one has been begun, and a retransmission begins with a
slot of the window, whichever acknowledgements have come behind the frame that armed it. -/
def Tidy (st : Station) (s : Ctx) : Call → Prop
  | .t1Expired => s.currentState = .frmrError →
      (st.config.maxRetries > 0 ∧ (s.n2 + 1) % 256 > st.config.maxRetries) ∨ frmrSent s.trace = true
  | .transmitUiEnd => begun s.trace = true
  | .dataIn bytes => BeginsInside st s bytes
  | _ => True

variable (hp : st.platform.Passive)
include hp

theorem Coupled.t1Expired {s t : Ctx} (h : Coupled st a b s t) (htidy : Tidy st s .t1Expired) :
    Coupled st a b (t1Expired st s) (t1Expired st t) := by
  have C := coupled_congruence hp a b
  unfold AtcHdlc.t1Expired
  extract_lets s1 maxRetries s2 t1 t2
  have hticked : Coupled st a b s2 t2 :=
    { h with t1Active := rfl, n2 := congrArg (fun n => (n + 1) % 256) h.n2 }
  have hsabm := C.t1Start.comp (C.sendU (·.peerAddress) (show (uCtrl uSabm true == uCtrl uFrmr false) = false by decide))
  have hdisc := C.t1Start.comp (C.sendU (·.peerAddress) (show (uCtrl uDisc true == uCtrl uFrmr false) = false by decide))
  have hpoll := C.t1Start.comp (C.ite (·.localBusy) (C.sendRnr true) (C.sendRr true))
  have hstate : s2.currentState = t2.currentState := hticked.currentState
  rw [← hticked.n2, ← hstate]
  by_cases hlost : maxRetries > 0 ∧ s2.n2 > maxRetries
  · rw [if_pos hlost, if_pos hlost]
    exact C.reset (C.setState .disconnected .linkFailure hticked)
  · rw [if_neg hlost, if_neg hlost]
    cases hs : s2.currentState with
    | connecting => exact hsabm hticked
    | disconnecting => exact hdisc hticked
    | connected => exact C.ite (fun v => v.va ≠ v.vs) hpoll .id hticked
    | frmrError =>
        have hsent : frmrSent s2.trace = true := (htidy hs).resolve_left hlost
        exact C.t1Start (hticked.retransmitFrmr (hticked.frmr hsent))
    | disconnected => exact hticked

omit hp in
theorem Coupled.transmitU {ctrl : UInt8} (hctrl : (ctrl == uCtrl uFrmr false) = false) (address : UInt8)
    (data : Payload) : Keeping (Coupled st a b) fun s => (transmitU st s ctrl address data).2 := by
  by_cases hdata : data.NonNull
  · simp only [AtcHdlc.transmitU, apply_ite Prod.snd, frameSend_of_nonNull st _ address ctrl hdata]
    exact .ite_const .id (.ite_const .id (Coupled.put _ hctrl))
  · have hnull : data.isNull = true ∧ 0 < data.len := not_not.mp (mt Payload.nonNull_iff.mpr hdata)
    simp only [AtcHdlc.transmitU, if_pos hnull]
    exact .id

omit hp in
/-- The same payload goes to the same place of the flat buffer. -/
theorem Coupled.filled {w : TxWindow} (hw : st.txWindow = some w) {data : Payload} (hdata : data.NonNull) :
    Keeping (Coupled st a b) fun s => filled w s data := by
  intro s t h
  have hlen := hdata.length_read
  refine { h with lens := ?_, slots := ?_ }
  · intro w' hw' i hi
    simp only [AtcHdlc.filled, h.cursor, Function.update_apply]
    split_ifs
    · rfl
    · exact h.lens w' hw' i hi
  · intro w' hw' i hi k hk
    obtain rfl : w = w' := Option.some_injective _ (hw.symm.trans hw')
    simp only [AtcHdlc.filled, h.cursor, Function.update_apply] at hk ⊢
    by_cases hrange : slotOffset w t.txNextSlot ≤ slotOffset w i + k ∧
        slotOffset w i + k < slotOffset w t.txNextSlot + data.read.length
    · rw [if_pos hrange, if_pos hrange]
    · rw [if_neg hrange, if_neg hrange]
      have hne : i ≠ t.txNextSlot := by
        rintro rfl
        rw [if_pos rfl] at hk
        exact hrange ⟨Nat.le_add_right _ _, by omega⟩
      rw [if_neg hne] at hk
      exact h.slots w hw i hi k hk

omit hp in
theorem Coupled.acceptI {w : TxWindow} (hw : st.txWindow = some w) {data : Payload} (hdata : data.NonNull) :
    Keeping (Coupled st a b) fun s => acceptI st w s data := by
  intro s t h
  simp only [acceptI_eq _ hdata]
  have hlogged := Coupled.log (o := .accept data.read) trivial (Coupled.filled hw hdata h)
  have hstored : Coupled st a b
      { (AtcHdlc.filled w s data).log (.accept data.read) with
        txNextSlot := u8 (((s.txNextSlot + 1) % w.slotCount : Nat) : Int) }
      { (AtcHdlc.filled w t data).log (.accept data.read) with
        txNextSlot := u8 (((t.txNextSlot + 1) % w.slotCount : Nat) : Int) } :=
    { hlogged with cursor := by rw [h.cursor] }
  have hput := (@Coupled.put st a b) ⟨s.peerAddress, iCtrl s.vs s.vr false, data.read⟩
    (iCtrl_ne_frmr s.vs s.vr false) hstored
  have hout : outstanding s = outstanding t := by rw [outstanding, outstanding, h.vs, h.va]
  rw [← hout, ← h.peerAddress, ← h.vr, ← h.vs]
  have hstopped := Coupled.t2Stop (hput.setVs ((s.vs + 1) % mod8))
  by_cases hnone : outstanding s = 0
  · rw [if_pos hnone, if_pos hnone]
    exact Coupled.t1Start hstopped
  · rw [if_neg hnone, if_neg hnone]
    exact hstopped

theorem Coupled.transmitI {data : Payload} (hdata : data.NonNull) :
    Keeping (Coupled st a b) fun s => (transmitI st s data).2 := by
  have C := coupled_congruence hp a b
  unfold AtcHdlc.transmitI
  cases hw : st.txWindow with
  | none =>
      simp only [apply_ite Prod.snd, ite_self]
      exact .id
  | some w =>
      simp only [apply_ite Prod.snd]
      exact C.ite (fun v => v.currentState ≠ .connected) .id
        (C.ite (·.remoteBusy) .id (.ite_const .id (.ite_const .id
          (C.ite (fun v => u8 (((v.vs : Int) - v.va + mod8).tmod mod8) ≥ w.slotCount) .id
            (Coupled.acceptI hw hdata)))))

theorem Coupled.call {s t : Ctx} (h : Coupled st a b s t) {call : Call} (hlegal : call.Legal)
    (htidy : Tidy st s call) : Coupled st a b (call.run st s) (call.run st t) := by
  have C := coupled_congruence hp a b
  cases call with
  | t1Expired => exact h.t1Expired hp htidy
  | t2Expired =>
      have hoff : Coupled st a b { s with t2Active := false } { t with t2Active := false } :=
        { h with control := congrArg (fun v : ControlView => { v with t2Active := false }) h.control }
      exact C.ite (·.localBusy) (C.sendRnr false) (C.sendRr false) hoff
  | linkSetup peerAddr =>
      have hpeer : Keeping (Coupled st a b) fun s => { s with peerAddress := peerAddr } := fun _ _ h =>
        { h with control := congrArg (fun v : ControlView => { v with peerAddress := peerAddr }) h.control }
      have hsabm := C.sendU (·.peerAddress) (show (uCtrl uSabm true == uCtrl uFrmr false) = false by decide)
      have hup := (C.setState .connecting .setupReq).comp (C.t1Start.comp (hsabm.comp hpeer))
      simp only [Call.run, linkSetup, apply_ite Prod.snd]
      exact C.ite (fun v => v.currentState ≠ .disconnected) .id hup h
  | disconnect =>
      have hdisc := C.sendU (·.peerAddress) (show (uCtrl uDisc true == uCtrl uFrmr false) = false by decide)
      have hdown := (C.setState .disconnecting .discReq).comp (C.t1Start.comp hdisc)
      simp only [Call.run, disconnect, apply_ite Prod.snd]
      exact C.ite (fun v => v.currentState ≠ .connected ∧ v.currentState ≠ .frmrError) .id hdown h
  | linkReset =>
      have hsabm := C.sendU (·.peerAddress) (show (uCtrl uSabm true == uCtrl uFrmr false) = false by decide)
      exact (C.setState .connecting .reset).comp (C.t1Start.comp (hsabm.comp C.reset)) h
  | abort =>
      have hreset := C.reset (Coupled.log (o := .send flag true) trivial
        (Coupled.log (o := .send flag false) trivial h))
      exact { hreset with
        rxState := rfl
        control := congrArg (fun v : ControlView => { v with currentState := .disconnected }) hreset.control }
  | setLocalBusy busy =>
      have hset (value : Bool) : Keeping (Coupled st a b) fun s => { s with localBusy := value } := fun _ _ h =>
        { h with control := congrArg (fun v : ControlView => { v with localBusy := value }) h.control }
      simp only [Call.run, setLocalBusy, apply_ite Prod.snd]
      exact C.ite (fun v => v.currentState ≠ .connected) .id
        (C.ite (fun v => busy ∧ ¬v.localBusy) (hset true)
          (C.ite (fun v => ¬busy ∧ v.localBusy) ((C.sendRr false).comp (hset false)) .id)) h
  | dataIn bytes => exact Coupled.retransmitIfPending (Coupled.rxBytes hp bytes h) htidy
  | transmitUi address data => exact Coupled.transmitU (by decide) address data h
  | transmitTest address data => exact Coupled.transmitU (by decide) address data h
  | transmitI data => exact Coupled.transmitI hp hlegal h
  | transmitUiStart address =>
      have hbegin := h.begin address (uCtrl uUi false) (crcFold st.crc fcsInitValue [address, uCtrl uUi false])
        fun hctrl => absurd hctrl (by decide)
      have hsent := Coupled.logs (plain_sends (flag :: octetCode.stuff [address, uCtrl uUi false])) hbegin
      simp only [Call.run, transmitUiStart, frameBegin_eq]
      simpa only [Ctx.log, Ctx.logs, List.append_assoc, List.singleton_append] using hsent
  | transmitUiData data =>
      have hemit : Keeping (Coupled st a b) fun s => emitAll st s data.read := by
        intro s t h
        have hsent := Coupled.logs (plain_sends (octetCode.stuff data.read)) h
        simp only [emitAll_eq]
        exact { hsent with crc := fun hbegun => congrArg (crcFold st.crc · data.read) (hsent.crc hbegun) }
      exact Keeping.ite_const (c := data.isNull ∧ 0 < data.len) .id hemit h
  | transmitUiEnd =>
      have hcrc := h.crc htidy
      simp only [Call.run, transmitUiEnd, frameEnd_eq, hcrc]
      refine Coupled.logs (fun o ho => ?_) h
      rcases List.mem_append.mp ho with ho | ho
      · exact plain_sends _ o ho
      · rw [List.mem_singleton.mp ho]
        trivial

theorem Coupled.foldl {s t : Ctx} (h : Coupled st a b s t) {calls : List Call}
    (hlegal : ∀ call ∈ calls, call.Legal) (htidy : Along st (Tidy st) s calls) :
    Coupled st a b (calls.foldl (Call.run st) s) (calls.foldl (Call.run st) t) := by
  induction calls generalizing s t with
  | nil => exact h
  | cons call calls ih =>
      have hcall := hlegal call List.mem_cons_self
      have hnext := h.call hp hcall htidy.1
      exact ih hnext (fun c hc => hlegal c (List.mem_cons_of_mem call hc)) htidy.2

/-! ### The frame that begins the session -/

omit hp in
/-- The frame ends the session before, answers a SABM, and fires the event. -/
theorem dispatch_of_establishes {s : Ctx} {f : Received} (hest : establishes s f.ctrl = true) :
    let begun := s.log (.dispatch f.address f.ctrl f.info)
    f.dispatch st s =
      if s.currentState = .connecting then
        setState st (resetState st (t1Stop st begun)) .connected .connAccepted
      else setState st (sendUa st (resetState st begun) (ctrlPf f.ctrl)) .connected .connReq := by
  intro begun
  have hlink : begun.currentState = s.currentState := rfl
  unfold Received.dispatch dispatchFrame
  rcases establishes_cases hest with ⟨hu, hcmd, hstate⟩ | ⟨hu, hcmd, hpf, hstate⟩
  · have hi := (uCtrl_kind hu).1
    have hs := (uCtrl_kind hu).2
    rcases hstate with hstate | hstate | hstate
    · rw [hstate] at hlink ⊢
      simp only [begun] at hlink ⊢
      simp [hlink, stateDisconnected, hu, hcmd]
    · rw [hstate] at hlink ⊢
      simp only [begun] at hlink ⊢
      simp [hlink, stateConnected, handleUframe, hu, hi, hs, hcmd]
    · rw [hstate] at hlink ⊢
      simp only [begun] at hlink ⊢
      simp [hlink, stateFrmrError, hu, hcmd]
  · rw [hstate] at hlink ⊢
    simp only [begun] at hlink ⊢
    simp [hlink, stateConnecting, hu, hcmd, hpf]

/-- From alike contexts a frame that establishes the link leads to coupled ones. -/
theorem coupled_of_establishes {s t : Ctx} (h : Alike s t) (hs : s.retransmitPending = false)
    (ht : t.retransmitPending = false) (f : Received) (hest : establishes s f.ctrl = true) :
    ∃ a b, Coupled st a b (f.dispatch st s) (f.dispatch st t) := by
  have hreset {u v : Ctx} (huv : Alike u v) (hu : u.retransmitPending = false)
      (hv : v.retransmitPending = false) : Coupled st (u.trace ++ [.reset] ++ stopObs st u)
        (v.trace ++ [.reset] ++ stopObs st v) (resetState st u) (resetState st v) := by
    refine .of_reset huv (hu.trans hv.symm) (fun hpending => ?_)
      ⟨[], (List.append_nil _).symm, (List.append_nil _).symm⟩
    rw [hu] at hpending
    exact absurd hpending Bool.false_ne_true
  have hparser : SameParser s t := h.parser
  have hest' : establishes t f.ctrl = true := by
    rw [← hest, establishes, establishes, h.currentState]
  have hanswered := hreset (u := s.log (.dispatch f.address f.ctrl f.info))
    (v := t.log (.dispatch f.address f.ctrl f.info)) ⟨h.currentState, h.myAddress, h.peerAddress,
      ⟨hparser.rxState, hparser.rxIndex, hparser.rxCrc, hparser.rxBuffer⟩⟩ hs ht
  have haccepted := hreset (u := t1Stop st (s.log (.dispatch f.address f.ctrl f.info)))
    (v := t1Stop st (t.log (.dispatch f.address f.ctrl f.info))) ⟨h.currentState, h.myAddress, h.peerAddress,
      ⟨hparser.rxState, hparser.rxIndex, hparser.rxCrc, hparser.rxBuffer⟩⟩ hs ht
  rw [dispatch_of_establishes hest, dispatch_of_establishes hest', ← h.currentState]
  by_cases hconnecting : s.currentState = .connecting
  · rw [if_pos hconnecting, if_pos hconnecting]
    exact ⟨_, _, (coupled_congruence hp _ _).setState .connected .connAccepted haccepted⟩
  · rw [if_neg hconnecting, if_neg hconnecting]
    have C := coupled_congruence hp
    exact ⟨_, _, ((C _ _).setState .connected .connReq).comp ((C _ _).sendUa (ctrlPf f.ctrl)) hanswered⟩

/-- Establishing the link leaves what is armed as it is. -/
theorem establishes_pending {s : Ctx} {f : Received} (hest : establishes s f.ctrl = true) :
    (f.dispatch st s).retransmitPending = s.retransmitPending := by
  rw [dispatch_of_establishes hest]
  split_ifs
  · rw [setState_pending hp, resetState_pending]
    rfl
  · rw [setState_pending hp, sendUa, sendU_eq]
    exact resetState_pending _

/-- What the application hears of it. -/
def setUpEvent (s : Ctx) : Event := if s.currentState = .connecting then .connAccepted else .connReq

/-- The application hears CONN_REQ or CONN_ACCEPTED and nothing else. -/
theorem establishes_events {s : Ctx} {f : Received} (hest : establishes s f.ctrl = true) :
    upper (f.dispatch st s).trace = upper s.trace ++ eventObs st (setUpEvent s) := by
  have hlogged : linkView (s.log (.dispatch f.address f.ctrl f.info)) = linkView s :=
    linkView_logs s rfl rfl (by simp [Plain])
  have htold (u : Ctx) : upper u.trace = (linkView u).told := rfl
  rw [dispatch_of_establishes hest]
  by_cases hconnecting : s.currentState = .connecting
  · have hne : (resetState st (t1Stop st (s.log (.dispatch f.address f.ctrl f.info)))).currentState ≠
        .connected := by
      rw [resetState_currentState]
      exact fun hconnected => absurd (hconnecting.symm.trans hconnected) (by decide)
    rw [setUpEvent, if_pos hconnecting, if_pos hconnecting, htold, linkView_setState hp, if_pos (Or.inl hne), linkView_resetState,
      linkView_t1Stop, hlogged]
    rfl
  · rw [setUpEvent, if_neg hconnecting, if_neg hconnecting, htold, linkView_setState hp, if_pos (Or.inr rfl), sendUa, sendU_eq,
      linkView_put, linkView_resetState, hlogged]
    rfl

/-- What two contexts of stations do after the frame that establishes the link, when nothing is armed by
then and the rest of the chunk and the calls use nothing that `reset_state` fails to forget. -/
structure Forgotten (st : Station) (s t : Ctx) (rest : List UInt8) (calls : List Call) : Prop where
  near : s.retransmitPending = false
  far : t.retransmitPending = false
  chunk : BeginsInside st (rxByte st s flag) rest
  calls : Along st (Tidy st) (retransmitIfPending st (rxBytes st s (flag :: rest))) calls

omit hp in
theorem outputs_of_coupled {s t : Ctx} {rest : List UInt8} {calls : List Call}
    (h : Coupled st (rxByte st s flag).trace (rxByte st t flag).trace
      (calls.foldl (Call.run st) (retransmitIfPending st (rxBytes st s (flag :: rest))))
      (calls.foldl (Call.run st) (retransmitIfPending st (rxBytes st t (flag :: rest))))) :
    outputs st s rest calls = outputs st t rest calls := by
  obtain ⟨x, hs, ht⟩ := h.trace
  rw [outputs, outputs, hs, ht, List.drop_left, List.drop_left]

/-- In whatever two contexts the same frame establishes the link, the application is told so, and what the
station does afterwards is the same, as long as the two contexts have nothing armed and nothing that
`reset_state` fails to forget is used. -/
theorem forgotten_outputs {s t : Ctx} (halike : Alike s t) {f : Received} (hf : completed s flag = some f)
    (hest : establishes s f.ctrl = true) (rest : List UInt8) {calls : List Call}
    (hlegal : ∀ call ∈ calls, call.Legal) (hforgotten : Forgotten st s t rest calls) :
    (∀ u ∈ [s, t], upper (f.dispatch st u).trace = upper u.trace ++ eventObs st (setUpEvent s)) ∧
      outputs st s rest calls = outputs st t rest calls := by
  have hf' : completed t flag = some f := (halike.parser.completed flag).symm.trans hf
  have hest' : establishes t f.ctrl = true := by
    rw [← hest, establishes, establishes, halike.currentState]
  have hevent : setUpEvent t = setUpEvent s := by rw [setUpEvent, setUpEvent, halike.currentState]
  have htold := establishes_events hp hest'
  rw [hevent] at htold
  refine ⟨List.forall_mem_cons.mpr ⟨establishes_events hp hest, List.forall_mem_singleton.mpr htold⟩, ?_⟩
  obtain ⟨a, b, hdispatched⟩ := coupled_of_establishes hp halike hforgotten.near hforgotten.far f hest
  have hbyte := rxByte_completed st s flag
  have hbyte' := rxByte_completed st t flag
  rw [hf] at hbyte
  rw [hf'] at hbyte'
  have hcoupled : Coupled st (rxByte st s flag).trace (rxByte st t flag).trace (rxByte st s flag)
      (rxByte st t flag) := by
    rw [hbyte, hbyte']
    refine { hdispatched.withParser (.rxRestart _ _ .addr) with trace := ⟨[], ?_, ?_⟩ }
    · exact (List.append_nil _).symm
    · exact (List.append_nil _).symm
  have hchunk := Coupled.call hp hcoupled (show (Call.dataIn rest).Legal from trivial) hforgotten.chunk
  exact outputs_of_coupled (Coupled.foldl hp hchunk hlegal hforgotten.calls)

end Chunk

/-- A SABM up to its closing flag. -/
def sabmOctets : List UInt8 := (Frame.octets crcOpsDefault ⟨0x01, uCtrl uSabm true, []⟩).dropLast

/-- A connected station that has read a SABM but for its closing flag. -/
def freshHearing : Ctx :=
  rxBytes (mockStation 0x01 3 threeSlots_pos threeSlots_le)
    (mockRun [.linkSetup 0x02, .dataIn (Frame.octets crcOpsDefault ⟨0x02, uCtrl uUa true, []⟩)]) sabmOctets

/-- The same station in the middle of a transfer. -/
def busyHearing : Ctx :=
  rxBytes (mockStation 0x01 3 threeSlots_pos threeSlots_le)
    (mockRun [.linkSetup 0x02, .dataIn (Frame.octets crcOpsDefault ⟨0x02, uCtrl uUa true, []⟩),
      .transmitI (.octets [0x11]), .transmitI (.octets [0x22])]) sabmOctets

theorem freshHearing_midway : Midway (mockStation 0x01 3 (by decide) (by decide)) zeroMemory freshHearing :=
  ⟨_, _, mockRun_reachable (by simp [Call.Legal]), rfl⟩

theorem busyHearing_midway : Midway (mockStation 0x01 3 (by decide) (by decide)) zeroMemory busyHearing :=
  ⟨_, _, mockRun_reachable (by simp [Call.Legal, Payload.NonNull, Payload.isNull]), rfl⟩

theorem hearing_alike : Alike freshHearing busyHearing :=
  ⟨by decide +kernel, by decide +kernel, by decide +kernel,
    ⟨by decide +kernel, by decide +kernel, by decide +kernel, by decide +kernel⟩⟩

theorem hearing_completes : (completed freshHearing flag).isSome = true := by decide +kernel

theorem forgotten_outputs_mock :
    Midway (mockStation 0x01 3 (by decide) (by decide)) zeroMemory freshHearing ∧
      Midway (mockStation 0x01 3 (by decide) (by decide)) zeroMemory busyHearing ∧
      outputs (mockStation 0x01 3 (by decide) (by decide)) freshHearing [] [.transmitI (.octets [0x33])] =
        outputs (mockStation 0x01 3 (by decide) (by decide)) busyHearing [] [.transmitI (.octets [0x33])] := by
  have hest : establishes freshHearing ((completed freshHearing flag).get hearing_completes).ctrl = true := by
    decide +kernel
  refine ⟨freshHearing_midway, busyHearing_midway, ?_⟩
  refine (forgotten_outputs mockPlatform_passive hearing_alike (Option.some_get hearing_completes).symm hest []
    (by simp [Call.Legal, Payload.NonNull, Payload.isNull]) ?_).2
  exact ⟨by decide +kernel, by decide +kernel, by decide +kernel, trivial, trivial⟩

/-- A connected station with a window of seven slots and two I-frames on the way. -/
def sevenSlots : Ctx :=
  [.linkSetup 0x02, .dataIn (Frame.octets crcOpsDefault ⟨0x02, uCtrl uUa true, []⟩),
    .transmitI (.octets [0x11]), .transmitI (.octets [0x22])].foldl
    (Call.run (mockStation 0x01 7 (by decide) (by decide)))
    (initCtx (mockStation 0x01 7 (by decide) (by decide)) zeroMemory)

/-- The station has read a SABM but for its closing flag, and before it in the same chunk a REJ or
nothing. -/
def rejectedHearing (rejected : Bool) : Ctx :=
  rxBytes (mockStation 0x01 7 (by decide) (by decide)) sevenSlots
    ((if rejected then Frame.octets crcOpsDefault ⟨0x01, sCtrl sRej 1 false, []⟩ else []) ++ sabmOctets)

theorem rejectedHearing_midway (rejected : Bool) :
    Midway (mockStation 0x01 7 (by decide) (by decide)) zeroMemory (rejectedHearing rejected) :=
  ⟨sevenSlots, _, Reachable.init.foldl (by simp [Call.Legal, Payload.NonNull, Payload.isNull]), rfl⟩

theorem rejectedHearing_alike : Alike (rejectedHearing true) (rejectedHearing false) :=
  ⟨by decide +kernel, by decide +kernel, by decide +kernel,
    ⟨by decide +kernel, by decide +kernel, by decide +kernel, by decide +kernel⟩⟩

theorem rejectedHearing_completes : (completed (rejectedHearing true) flag).isSome = true := by
  decide +kernel

/-- A retransmission that a REJ armed before the SABM in the same chunk runs in the new session: seven
empty I-frames go out that nobody handed over. Without the REJ there is silence. -/
theorem armed_outlives_reset :
    let st := mockStation 0x01 7 (by decide) (by decide)
    let s := rejectedHearing true
    let t := rejectedHearing false
    Midway st zeroMemory s ∧ Midway st zeroMemory t ∧ Alike s t ∧
      (∃ f, completed s flag = some f ∧ completed t flag = some f ∧ establishes s f.ctrl = true) ∧
      ¬outputs st s [] [] = outputs st t [] [] := by
  intro st s t
  have hest : establishes (rejectedHearing true)
      ((completed (rejectedHearing true) flag).get rejectedHearing_completes).ctrl = true := by decide +kernel
  have hsame := rejectedHearing_alike.parser.completed flag
  have hf := (Option.some_get rejectedHearing_completes).symm
  have hmore : (outputs (mockStation 0x01 7 (by decide) (by decide)) (rejectedHearing true) [] []).length ≠
      (outputs (mockStation 0x01 7 (by decide) (by decide)) (rejectedHearing false) [] []).length := by
    decide +kernel
  exact ⟨rejectedHearing_midway true, rejectedHearing_midway false, rejectedHearing_alike,
    ⟨_, hf, hsame.symm.trans hf, hest⟩, fun houtputs => hmore (congrArg List.length houtputs)⟩

end AtcHdlc
