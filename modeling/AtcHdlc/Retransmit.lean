import AtcHdlc.Window

/-! The deferred retransmission. A frame arms it, the end of the chunk runs it, and later frames of the
chunk can move the window away from the number it was armed with. Each frame is described by what the
dispatcher does to V(A), V(S), the T1 flag and the armed number (`dispatchFrame_ackView`). -/

namespace AtcHdlc

/-- A frame as the parser hands it to `dispatch_frame`. -/
structure Received where
  address : UInt8
  ctrl : UInt8
  info : Option (List UInt8)

/-- The frame that an octet completes. -/
def completed (s : Ctx) (byte : UInt8) : Option Received :=
  let dlen := s.rxIndex - fcsLen
  if byte ≠ flag ∨ s.rxState = .hunt ∨ s.rxIndex < minFrameLen ∨
      s.rxCrc ≠ rxFcs (s.rxBuffer dlen) (s.rxBuffer (dlen + 1)) then none
  else some
    { address := s.rxBuffer 0
      ctrl := s.rxBuffer 1
      info :=
        if dlen > addrLen + ctrlLen then
          some (readBuffer s (addrLen + ctrlLen) ((dlen - (addrLen + ctrlLen)) % 2 ^ 16))
        else none }

def Received.dispatch (st : Station) (s : Ctx) (f : Received) : Ctx :=
  dispatchFrame st s f.address f.ctrl f.info

section Chunks

variable (st : Station)

theorem rxByte_completed (s : Ctx) (byte : UInt8) :
    rxByte st s byte =
      match completed s byte with
      | some f => rxRestart (f.dispatch st s) .addr
      | none => s.withParser (rxByte st s byte) := by
  by_cases hbyte : byte = flag
  · subst hbyte
    have hstep : rxByte st s flag = handleFlag st s := by simp [rxByte]
    rw [hstep]
    unfold handleFlag completed
    extract_lets dlen address ctrl info
    by_cases hskip : s.rxState = .hunt ∨ s.rxIndex < minFrameLen
    · rw [if_pos hskip, if_pos (by tauto)]
      rfl
    · rw [if_neg hskip]
      by_cases hfcs : s.rxCrc ≠ rxFcs (s.rxBuffer dlen) (s.rxBuffer (dlen + 1))
      · rw [if_pos hfcs, if_pos (by tauto)]
        rfl
      · rw [if_neg hfcs, if_neg (by tauto)]
        rfl
  · have hnone : completed s byte = none := if_pos (Or.inl hbyte)
    rw [hnone]
    exact rxByte_withParser s hbyte

/-- The frames that a chunk completes, each with the context in which it is dispatched. -/
def chunkFrames : Ctx → List UInt8 → List (Ctx × Received)
  | _, [] => []
  | s, byte :: bytes =>
      (completed s byte).toList.map (s, ·) ++ chunkFrames (rxByte st s byte) bytes

theorem chunkFrames_append (s : Ctx) (left right : List UInt8) :
    chunkFrames st s (left ++ right) =
      chunkFrames st s left ++ chunkFrames st (rxBytes st s left) right := by
  induction left generalizing s with
  | nil => rfl
  | cons byte left ih =>
      rw [List.cons_append, chunkFrames, chunkFrames, ih, List.append_assoc]
      rfl

/-- What the parser does not change and every frame of a chunk keeps, if it is as it should be, the chunk
keeps. -/
theorem rxBytes_frames {P : Ctx → Prop} {K : Ctx × Received → Prop}
    (hparser : ∀ s t, P s → P (s.withParser t)) (hdispatch : ∀ s f, P s → K (s, f) → P (f.dispatch st s))
    {s : Ctx} (hs : P s) {bytes : List UInt8} (hok : ∀ x ∈ chunkFrames st s bytes, K x) :
    P (rxBytes st s bytes) := by
  induction bytes generalizing s with
  | nil => exact hs
  | cons byte bytes ih =>
      have hbyte := rxByte_completed st s byte
      rw [chunkFrames] at hok
      have hrest : ∀ x ∈ chunkFrames st (rxByte st s byte) bytes, K x :=
        fun x hx => hok x (List.mem_append_right _ hx)
      refine ih ?_ hrest
      cases hc : completed s byte with
      | none =>
          rw [hc] at hbyte
          rw [hbyte]
          exact hparser s _ hs
      | some f =>
          rw [hc] at hbyte hok
          rw [hbyte]
          have hf : K (s, f) := hok (s, f) (List.mem_append_left _ (by simp))
          exact hparser _ (rxRestart (f.dispatch st s) .addr) (hdispatch s f hs hf)

/-- What the parser does not change and a frame keeps just when it is as it should be, a chunk keeps just
when its frames are. -/
theorem rxBytes_iff {P : Ctx → Prop} {K : Ctx × Received → Prop}
    (hparser : ∀ s t, P (s.withParser t) ↔ P s) (hdispatch : ∀ s f, P (f.dispatch st s) ↔ P s ∧ K (s, f))
    (s : Ctx) (bytes : List UInt8) :
    P (rxBytes st s bytes) ↔ P s ∧ ∀ x ∈ chunkFrames st s bytes, K x := by
  induction bytes generalizing s with
  | nil => simp [chunkFrames, rxBytes]
  | cons byte bytes ih =>
      have hbyte := rxByte_completed st s byte
      have hcons : rxBytes st s (byte :: bytes) = rxBytes st (rxByte st s byte) bytes := rfl
      rw [hcons, ih, chunkFrames, List.forall_mem_append, ← and_assoc]
      refine and_congr_left' ?_
      cases hc : completed s byte with
      | none =>
          rw [hc] at hbyte
          rw [hbyte, hparser]
          simp
      | some f =>
          rw [hc] at hbyte
          have hrestart : P (rxByte st s byte) ↔ P (f.dispatch st s) := by
            rw [hbyte]
            exact hparser _ (rxRestart (f.dispatch st s) .addr)
          rw [hrestart, hdispatch]
          simp

/-- What only dispatches change is what the last frame of a chunk leaves. -/
theorem rxBytes_last {β : Type} (π : Ctx → β) (hparser : ∀ s t, π (s.withParser t) = π s) (s : Ctx)
    (bytes : List UInt8) :
    π (rxBytes st s bytes) =
      match (chunkFrames st s bytes).getLast? with
      | some x => π (x.2.dispatch st x.1)
      | none => π s := by
  induction bytes generalizing s with
  | nil => rfl
  | cons byte bytes ih =>
      have hbyte := rxByte_completed st s byte
      have hcons : rxBytes st s (byte :: bytes) = rxBytes st (rxByte st s byte) bytes := rfl
      rw [hcons, ih, chunkFrames, List.getLast?_append]
      cases hlast : (chunkFrames st (rxByte st s byte) bytes).getLast? with
      | some x => rfl
      | none =>
          cases hc : completed s byte with
          | none =>
              rw [hc] at hbyte
              rw [hbyte]
              exact hparser s _
          | some f =>
              rw [hc] at hbyte
              rw [hbyte]
              exact hparser _ (rxRestart (f.dispatch st s) .addr)

/-- What only dispatches change follows the frames of a chunk. -/
theorem rxBytes_view {β : Type} (π : Ctx → β) (step : β → Ctx × Received → β) {P : Ctx → Prop}
    (hparser : ∀ s t, π (s.withParser t) = π s) (hkeep : ∀ s t, P s → P (s.withParser t))
    (hdispatch : ∀ s f, P s → π (f.dispatch st s) = step (π s) (s, f) ∧ P (f.dispatch st s)) {s : Ctx}
    (hs : P s) (bytes : List UInt8) :
    π (rxBytes st s bytes) = (chunkFrames st s bytes).foldl step (π s) := by
  induction bytes generalizing s with
  | nil => rfl
  | cons byte bytes ih =>
      have hcons : rxBytes st s (byte :: bytes) = rxBytes st (rxByte st s byte) bytes := rfl
      have hbyte := rxByte_completed st s byte
      rw [hcons, chunkFrames, List.foldl_append]
      cases hc : completed s byte with
      | none =>
          rw [hc] at hbyte
          simp only at hbyte
          have hP : P (rxByte st s byte) := by
            rw [hbyte]
            exact hkeep s _ hs
          rw [ih hP, hbyte, hparser]
          rfl
      | some f =>
          rw [hc] at hbyte
          obtain ⟨hview, hP⟩ := hdispatch s f hs
          have hP' : P (rxByte st s byte) := by
            rw [hbyte]
            exact hkeep _ (rxRestart (f.dispatch st s) .addr) hP
          have hrestart : π (rxByte st s byte) = π (f.dispatch st s) := by
            rw [hbyte]
            exact hparser _ (rxRestart (f.dispatch st s) .addr)
          rw [ih hP', hrestart, hview]
          rfl

end Chunks

/-! ### What a frame does to the window -/

theorem isIframe_iff (ctrl : UInt8) : isIframe ctrl ↔ ctrl.toNat % 2 = 0 := by
  have hand : ctrl.toNat &&& 1 = ctrl.toNat % 2 := Nat.and_two_pow_sub_one_eq_mod _ 1
  rw [isIframe, beq_iff_eq, ← UInt8.toNat_inj, UInt8.toNat_and]
  exact Iff.of_eq (congrArg (· = 0) hand)

theorem isSframe_iff (ctrl : UInt8) : isSframe ctrl ↔ ctrl.toNat % 4 = 1 := by
  have hand : ctrl.toNat &&& 3 = ctrl.toNat % 4 := Nat.and_two_pow_sub_one_eq_mod _ 2
  rw [isSframe, beq_iff_eq, ← UInt8.toNat_inj, UInt8.toNat_and]
  exact Iff.of_eq (congrArg (· = 1) hand)

theorem isUframe_iff (ctrl : UInt8) : isUframe ctrl ↔ ctrl.toNat % 4 = 3 := by
  have hand : ctrl.toNat &&& 3 = ctrl.toNat % 4 := Nat.and_two_pow_sub_one_eq_mod _ 2
  rw [isUframe, beq_iff_eq, ← UInt8.toNat_inj, UInt8.toNat_and]
  exact Iff.of_eq (congrArg (· = 3) hand)

/-- `reset_state` runs. -/
def resets (s : Ctx) (ctrl : UInt8) : Bool :=
  isUframe ctrl &&
    match s.currentState, uCmd ctrl with
    | .disconnected, .sabm | .frmrError, .sabm => true
    | .connecting, .ua => ctrlPf ctrl
    | .connected, .sabm | .connected, .disc | .connected, .dm | .connected, .frmr => true
    | _, _ => false

/-- A valid N(R) moves V(A). -/
def acks (s : Ctx) (ctrl : UInt8) : Bool :=
  s.currentState = .connected && !isUframe ctrl && nrValid s (ctrlNr ctrl) && ctrlNr ctrl ≠ s.va

/-- A REJ or a final response arms a retransmission from N(R) on. -/
def arms (s : Ctx) (address ctrl : UInt8) : Bool :=
  s.currentState = .connected && isSframe ctrl && nrValid s (ctrlNr ctrl) && ctrlNr ctrl ≠ s.vs &&
    (ctrlS ctrl = sRej || !isCmd s address && ctrlPf ctrl)

/-- What becomes of T1: stopped, started, or left alone. -/
def t1Change (s : Ctx) (ctrl : UInt8) : Option Bool :=
  if resets s ctrl then some false
  else match s.currentState with
    | .connecting => if isUframe ctrl ∧ uCmd ctrl = .dm ∧ ctrlPf ctrl then some false else none
    | .disconnecting =>
        if isUframe ctrl ∧ (uCmd ctrl = .ua ∨ uCmd ctrl = .dm) ∧ ctrlPf ctrl then some false else none
    | .connected =>
        if isUframe ctrl then
          if uCmd ctrl = .ua ∨ uCmd ctrl = .unknown then some true else none
        else if ¬nrValid s (ctrlNr ctrl) then some true
        else if isSframe ctrl ∧ ctrlS ctrl = sRej then some false
        else if ctrlNr ctrl = s.vs then some false
        else if ctrlNr ctrl ≠ s.va then some true
        else none
    | _ => none

/-- V(A), V(S), the T1 flag and what is armed. -/
@[ext]
structure AckView where
  va : Nat
  vs : Nat
  t1Active : Bool
  retransmitPending : Bool
  retransmitFrom : Nat
  deriving DecidableEq

def ackView (s : Ctx) : AckView :=
  ⟨s.va, s.vs, s.t1Active, s.retransmitPending, s.retransmitFrom⟩

/-- The view after a frame. -/
def AckView.next (v : AckView) (x : Ctx × Received) : AckView :=
  let nr := ctrlNr x.2.ctrl
  if resets x.1 x.2.ctrl then { v with va := 0, vs := 0, t1Active := false }
  else
    { va := if acks x.1 x.2.ctrl then nr else v.va
      vs := v.vs
      t1Active := (t1Change x.1 x.2.ctrl).getD v.t1Active
      retransmitPending := v.retransmitPending || arms x.1 x.2.address x.2.ctrl
      retransmitFrom := if arms x.1 x.2.address x.2.ctrl then nr else v.retransmitFrom }

section AckView

variable {st : Station}

@[simp] theorem ackView_log (s : Ctx) (o : Obs) : ackView (s.log o) = ackView s := rfl

@[simp] theorem ackView_put (s : Ctx) (f : Frame) : ackView (s.put st f) = ackView s := rfl

@[simp] theorem ackView_t1Start (s : Ctx) :
    ackView (t1Start st s) = { ackView s with t1Active := true } := rfl

@[simp] theorem ackView_t1Stop (s : Ctx) :
    ackView (t1Stop st s) = { ackView s with t1Active := false } := rfl

@[simp] theorem ackView_t2Start (s : Ctx) : ackView (t2Start st s) = ackView s := rfl

@[simp] theorem ackView_t2Stop (s : Ctx) : ackView (t2Stop st s) = ackView s := rfl

theorem ackView_resetState (s : Ctx) :
    ackView (resetState st s) = { ackView s with va := 0, vs := 0, t1Active := false } := by
  have hclear : ackView (clearState st s) = { ackView s with va := 0, vs := 0 } := by
    rw [clearState, clearSlotLens_eq]
    rfl
  have hstep : ackView (resetState st s) = { ackView (clearState st s) with t1Active := false } := rfl
  rw [hstep, hclear]

variable (hp : st.platform.Passive)
include hp

theorem ackView_onData (s : Ctx) (payload : List UInt8) : ackView (onData st s payload) = ackView s := by
  rw [onData_passive hp]
  rfl

theorem ackView_onEvent (s : Ctx) (event : Event) : ackView (onEvent st s event) = ackView s := by
  rw [onEvent_passive hp]
  rfl

theorem ackView_setState (s : Ctx) (newState : State) (event : Event) :
    ackView (setState st s newState event) = ackView s := by
  simp only [setState]
  split_ifs
  · rw [ackView_onEvent hp]
    rfl
  · rfl

theorem ackView_framesAcked (s : Ctx) (nr : Nat) :
    ackView (framesAcked st s nr) = { ackView s with va := nr } := by
  unfold framesAcked
  split_ifs with h
  · rw [h]
    rfl
  · cases st.txWindow with
    | none => rfl
    | some w =>
        simp only
        split_ifs
        · rw [ackView_onEvent hp]
          rfl
        · rfl

theorem ackView_processNr (s : Ctx) (nr : Nat) :
    ackView (processNr st s nr) =
      { ackView s with
        va := nr
        t1Active := if s.vs = nr then false else if s.va ≠ nr then true else s.t1Active } := by
  unfold processNr
  split_ifs with hvs hva
  · rw [ackView_t1Stop, ackView_framesAcked hp]
  · rw [ackView_t1Start, ackView_framesAcked hp]
  · obtain rfl : s.va = nr := not_not.mp hva
    rfl

omit hp in
theorem ackView_triggerRetransmit {s : Ctx} {fromSeq : Nat} (hw : st.txWindow ≠ none)
    (hne : s.vs ≠ fromSeq) :
    ackView (triggerRetransmit st s fromSeq) =
      { ackView s with retransmitPending := true, retransmitFrom := fromSeq } := by
  have hskip : ¬(st.txWindow.isNone = true ∨ s.vs = fromSeq) := by
    rintro (hnone | heq)
    · exact hw (Option.isNone_iff_eq_none.mp hnone)
    · exact hne heq
  rw [triggerRetransmit, if_neg hskip]
  rfl

omit hp in
theorem ackView_sendFrmr (s : Ctx) (ctrl : UInt8) (w x y z : Bool) :
    ackView (sendFrmr st s ctrl w x y z) = { ackView s with t1Active := true } := by
  rw [sendFrmr, ackView_t1Start, retransmitFrmr_eq]
  rfl

theorem ackView_rejectNr (s : Ctx) (ctrl : UInt8) :
    ackView (rejectNr st s ctrl) = { ackView s with t1Active := true } := by
  rw [rejectNr, ackView_setState hp, ackView_sendFrmr]

theorem ackView_handleInSequenceIframe (s : Ctx) (pf : Bool) (info : Option (List UInt8)) :
    ackView (handleInSequenceIframe st s pf info) = ackView s := by
  have hdata : ackView (onData st { s.log (.received (info.getD [])) with
      vr := (s.vr + 1) % mod8, rejException := false } (info.getD [])) = ackView s :=
    ackView_onData hp _ _
  simp only [handleInSequenceIframe, sendRnr, sendRrResp, sendS_eq]
  split_ifs <;> simpa using hdata

omit hp in
theorem ackView_handleOutOfSequenceIframe (s : Ctx) (pf : Bool) :
    ackView (handleOutOfSequenceIframe st s pf) = ackView s := by
  simp only [handleOutOfSequenceIframe, sendRrResp, sendRej, sendS_eq]
  split_ifs <;> rfl

theorem ackView_updateRemoteBusy (s : Ctx) (kind : Nat) :
    ackView (updateRemoteBusy st s kind) = ackView s := by
  simp only [updateRemoteBusy]
  split_ifs
  · exact ackView_onEvent hp _ _
  · rfl
  · rfl
  · exact ackView_onEvent hp _ _
  · rfl
  · rfl

omit hp in
theorem nrValid_congr {s t : Ctx} (h : ackView t = ackView s) (nr : Nat) :
    nrValid t nr = nrValid s nr := by
  have hva : t.va = s.va := congrArg AckView.va h
  have hvs : t.vs = s.vs := congrArg AckView.vs h
  rw [nrValid, nrValid, hva, hvs]

theorem ackView_handleIframe (s : Ctx) (ctrl : UInt8) (info : Option (List UInt8)) :
    ackView (handleIframe st s ctrl info) =
      if nrValid s (ctrlNr ctrl) then ackView (processNr st s (ctrlNr ctrl))
      else { ackView s with t1Active := true } := by
  unfold handleIframe
  by_cases hvalid : nrValid s (ctrlNr ctrl)
  · simp only [hvalid, not_true_eq_false, if_false, if_true]
    split_ifs
    · rw [ackView_handleInSequenceIframe hp]
    · rw [ackView_handleOutOfSequenceIframe]
  · simp only [hvalid, Bool.false_eq_true, not_false_eq_true, if_true, if_false]
    rw [ackView_rejectNr hp]

/-- The view after the part of `handle_sframe` that looks at N(R). -/
theorem ackView_acked (s : Ctx) (nr : Nat) (hw : nr ≠ s.vs → st.txWindow ≠ none) (rej : Prop)
    [Decidable rej] :
    ackView (if rej then
        let t := t1Stop st (framesAcked st s nr)
        if t.va ≠ t.vs then triggerRetransmit st t nr else t
      else processNr st s nr) =
      { va := nr
        vs := s.vs
        t1Active := if rej then false else (ackView (processNr st s nr)).t1Active
        retransmitPending := s.retransmitPending || (nr ≠ s.vs && rej)
        retransmitFrom := if nr ≠ s.vs ∧ rej then nr else s.retransmitFrom } := by
  by_cases hrej : rej
  · simp only [hrej, if_true, and_true, decide_true, Bool.and_true]
    have hstopped : ackView (t1Stop st (framesAcked st s nr)) =
        { ackView s with va := nr, t1Active := false } := by
      rw [ackView_t1Stop, ackView_framesAcked hp]
    have hva : (t1Stop st (framesAcked st s nr)).va = nr := congrArg AckView.va hstopped
    have hvs : (t1Stop st (framesAcked st s nr)).vs = s.vs := congrArg AckView.vs hstopped
    rw [hva, hvs]
    by_cases hne : nr ≠ s.vs
    · have hvs' : (t1Stop st (framesAcked st s nr)).vs ≠ nr := by
        rw [hvs]
        exact Ne.symm hne
      rw [if_pos hne, if_pos hne, ackView_triggerRetransmit (hw hne) hvs', hstopped]
      simp [hne, ackView]
    · rw [if_neg hne, if_neg hne, hstopped]
      simp [hne, ackView]
  · simp only [hrej, if_false, and_false, decide_false, Bool.and_false, Bool.or_false]
    rw [ackView_processNr hp]
    rfl

/-- Without a transmit window nothing is ever outstanding. -/
def Windowed (st : Station) (s : Ctx) : Prop := st.txWindow = none → s.va = 0 ∧ s.vs = 0

omit hp in
theorem Windowed.of_some {w : TxWindow} (hw : st.txWindow = some w) (s : Ctx) : Windowed st s := by
  intro hnone
  rw [hw] at hnone
  exact absurd hnone (by simp)

omit hp in
/-- A valid N(R) that leaves something outstanding needs a window. -/
theorem Windowed.some_of_ne {s : Ctx} (h : Windowed st s) {ctrl : UInt8} (hvalid : nrValid s (ctrlNr ctrl))
    (hne : ctrlNr ctrl ≠ s.vs) : st.txWindow ≠ none := by
  intro hnone
  obtain ⟨hva, hvs⟩ := h hnone
  have hlt := ctrlNr_lt ctrl
  rw [nrValid, hva, hvs, decide_eq_true_eq] at hvalid
  rw [hvs] at hne
  simp only [u8, mod8] at hvalid
  omega

theorem ackView_handleSframe {s : Ctx} (hw : Windowed st s) (address ctrl : UInt8) :
    ackView (handleSframe st s address ctrl) =
      if nrValid s (ctrlNr ctrl) then
        let armed := ctrlNr ctrl ≠ s.vs && (ctrlS ctrl = sRej || !isCmd s address && ctrlPf ctrl)
        { va := ctrlNr ctrl
          vs := s.vs
          t1Active :=
            if ctrlS ctrl = sRej then false
            else (ackView (processNr st s (ctrlNr ctrl))).t1Active
          retransmitPending := s.retransmitPending || armed
          retransmitFrom := if armed then ctrlNr ctrl else s.retransmitFrom }
      else { ackView s with t1Active := true } := by
  unfold handleSframe
  extract_lets kind nr pf cmd busy polled stopped acked armed rejected
  have hpolled : ackView polled = ackView s := by
    have hbusy : ackView busy = ackView s := ackView_updateRemoteBusy hp s kind
    unfold polled
    simp only [sendRrResp, sendS_eq]
    split_ifs
    · exact hbusy
    · exact hbusy
  have hvs : polled.vs = s.vs := congrArg AckView.vs hpolled
  have hpending : polled.retransmitPending = s.retransmitPending :=
    congrArg AckView.retransmitPending hpolled
  have hfrom : polled.retransmitFrom = s.retransmitFrom := congrArg AckView.retransmitFrom hpolled
  have hprocess : ackView (processNr st polled nr) = ackView (processNr st s nr) := by
    have hva : polled.va = s.va := congrArg AckView.va hpolled
    have ht1 : polled.t1Active = s.t1Active := congrArg AckView.t1Active hpolled
    rw [ackView_processNr hp, ackView_processNr hp, hpolled, hvs, hva, ht1]
  rw [nrValid_congr hpolled]
  by_cases hvalid : nrValid s nr
  · have hsome : nr ≠ s.vs → st.txWindow ≠ none := hw.some_of_ne hvalid
    have hacked := ackView_acked hp polled nr (by rw [hvs]; exact hsome) (kind = sRej)
    rw [hvs, hpending, hfrom, hprocess] at hacked
    have hview : ackView acked = _ := hacked
    have hva : acked.va = nr := congrArg AckView.va hview
    have hvs' : acked.vs = s.vs := congrArg AckView.vs hview
    rw [if_neg (not_not.mpr hvalid), if_pos hvalid, hva, hvs']
    by_cases hfinal : ¬cmd ∧ pf
    · have hresponse : (!isCmd s address && ctrlPf ctrl) = true := by simpa [cmd, pf] using hfinal
      rw [if_pos hfinal]
      by_cases hne : nr ≠ s.vs
      · have hvs'' : acked.vs ≠ nr := by
          rw [hvs']
          exact Ne.symm hne
        rw [if_pos hne, ackView_triggerRetransmit (hsome hne) hvs'', hview]
        have hne' : ctrlNr ctrl ≠ s.vs := hne
        simp [armed, hne', hresponse, nr, kind]
      · rw [if_neg hne, hview]
        have hne' : ctrlNr ctrl = s.vs := not_not.mp hne
        simp [armed, hne', nr, kind]
    · have hresponse : (!isCmd s address && ctrlPf ctrl) = false := by simpa [cmd, pf] using hfinal
      rw [if_neg hfinal, hview]
      simp [armed, hresponse, nr, kind]
  · rw [if_pos hvalid, if_neg hvalid, ackView_rejectNr hp, hpolled]

theorem ackView_handleUframe {s : Ctx} (hstate : s.currentState = .connected) (f : Received)
    (hu : isUframe f.ctrl) :
    ackView (handleUframe st s f.address f.ctrl f.info) = (ackView s).next (s, f) := by
  have hs : isSframe f.ctrl = false := by
    rw [Bool.eq_false_iff, ne_eq, isSframe_iff]
    rw [isUframe_iff] at hu
    omega
  simp only [AckView.next, resets, acks, arms, t1Change, hstate, hu, hs, Bool.true_and, if_true,
    Bool.not_true, Bool.and_false, Bool.false_and, Bool.or_false, handleUframe]
  cases hcmd : uCmd f.ctrl with
  | sabm | disc | dm | frmr =>
      simp [ackView_setState hp, ackView_resetState, sendUa]
  | ui =>
      simp only [ackView_onData hp]
      rfl
  | test =>
      simp only [frameSend_octets]
      by_cases hanswer : isCmd s f.address = true
      · rw [if_pos hanswer]
        rfl
      · rw [if_neg hanswer]
        cases f.info with
        | some payload => exact ackView_onData hp s payload
        | none => rfl
  | snrm | sabme | snrme | sarme =>
      simp only [sendDm, sendU_eq]
      rfl
  | ua | unknown =>
      rw [ackView_sendFrmr]
      rfl

omit hp in
theorem t1_processNr (nr vs va : Nat) (t1Active : Bool) :
    (if vs = nr then false else if va ≠ nr then true else t1Active) =
      (if nr = vs then some false else if nr ≠ va then some true else none).getD t1Active := by
  by_cases hvs : vs = nr
  · rw [if_pos hvs, if_pos hvs.symm]
    rfl
  · rw [if_neg hvs, if_neg (Ne.symm hvs)]
    by_cases hva : va ≠ nr
    · rw [if_pos hva, if_pos hva.symm]
      rfl
    · rw [if_neg hva, if_neg fun h => hva h.symm]
      rfl

theorem ackView_stateConnected {s : Ctx} (hw : Windowed st s) (hstate : s.currentState = .connected)
    (f : Received) :
    ackView (stateConnected st s f.address f.ctrl f.info) = (ackView s).next (s, f) := by
  have hI := isIframe_iff f.ctrl
  have hS := isSframe_iff f.ctrl
  have hU := isUframe_iff f.ctrl
  unfold stateConnected
  split_ifs with hi hs hu
  · have hs : isSframe f.ctrl = false := by
      rw [Bool.eq_false_iff, ne_eq, hS]
      rw [hI] at hi
      omega
    have hu : isUframe f.ctrl = false := by
      rw [Bool.eq_false_iff, ne_eq, hU]
      rw [hI] at hi
      omega
    rw [ackView_handleIframe hp, ackView_processNr hp]
    simp only [AckView.next, resets, acks, arms, t1Change, ackView, hstate, hs, hu, t1_processNr]
    generalize ctrlNr f.ctrl = nr
    generalize nrValid s nr = valid
    cases valid with
    | false => simp
    | true => apply AckView.ext <;> simp
  · have hu : isUframe f.ctrl = false := by
      rw [Bool.eq_false_iff, ne_eq, hU]
      rw [hS] at hs
      omega
    rw [ackView_handleSframe hp hw, ackView_processNr hp]
    simp only [AckView.next, resets, acks, arms, t1Change, ackView, hstate, hs, hu, t1_processNr]
    generalize ctrlNr f.ctrl = nr
    generalize nrValid s nr = valid
    cases valid with
    | false => simp
    | true =>
        by_cases hrej : ctrlS f.ctrl = sRej
        · apply AckView.ext <;> simp [hrej]
        · apply AckView.ext <;> simp [hrej]
  · exact ackView_handleUframe hp hstate f hu
  · rw [hI] at hi
    rw [hS] at hs
    rw [hU] at hu
    omega

omit hp in
/-- Outside of CONNECTED no frame acknowledges or arms anything. -/
theorem next_of_not_connected {s : Ctx} (hstate : s.currentState ≠ .connected) (v : AckView)
    (f : Received) :
    v.next (s, f) =
      if resets s f.ctrl then { v with va := 0, vs := 0, t1Active := false }
      else { v with t1Active := (t1Change s f.ctrl).getD v.t1Active } := by
  simp [AckView.next, acks, arms, hstate]

theorem ackView_stateDisconnected {s : Ctx} (hstate : s.currentState = .disconnected) (f : Received) :
    ackView (stateDisconnected st s f.ctrl f.info) = (ackView s).next (s, f) := by
  rw [next_of_not_connected (by rw [hstate]; decide)]
  unfold stateDisconnected
  by_cases hu : isUframe f.ctrl
  · cases hcmd : uCmd f.ctrl with
    | sabm =>
        simp [resets, hstate, hu, hcmd, ackView_setState hp, ackView_resetState, sendUa]
    | ui =>
        simp [resets, t1Change, hstate, hu, hcmd, ackView_onData hp]
    | disc | snrm | sabme | snrme | sarme =>
        simp [resets, t1Change, hstate, hu, hcmd, sendUa, sendDm]
    | ua | dm | frmr | test | unknown => simp [resets, t1Change, hstate, hu, hcmd]
  · simp [resets, t1Change, hstate, hu]

theorem ackView_stateConnecting {s : Ctx} (hstate : s.currentState = .connecting) (f : Received) :
    ackView (stateConnecting st s f.ctrl) = (ackView s).next (s, f) := by
  rw [next_of_not_connected (by rw [hstate]; decide)]
  unfold stateConnecting
  by_cases hu : isUframe f.ctrl
  · cases hcmd : uCmd f.ctrl with
    | ua | dm =>
        cases hpf : ctrlPf f.ctrl <;>
          simp [resets, t1Change, hstate, hu, hcmd, hpf, ackView_setState hp, ackView_resetState]
    | sabm | disc => simp [resets, t1Change, hstate, hu, hcmd, sendUa, sendDm]
    | ui | snrm | sabme | snrme | sarme | frmr | test | unknown =>
        simp [resets, t1Change, hstate, hu, hcmd]
  · simp [resets, t1Change, hstate, hu]

theorem ackView_stateDisconnecting {s : Ctx} (hstate : s.currentState = .disconnecting)
    (f : Received) : ackView (stateDisconnecting st s f.ctrl) = (ackView s).next (s, f) := by
  rw [next_of_not_connected (by rw [hstate]; decide)]
  unfold stateDisconnecting
  by_cases hu : isUframe f.ctrl
  · cases hcmd : uCmd f.ctrl with
    | ua | dm =>
        cases hpf : ctrlPf f.ctrl <;>
          simp [resets, t1Change, hstate, hu, hcmd, hpf, ackView_setState hp]
    | sabm | sabme | disc => simp [resets, t1Change, hstate, hu, hcmd, sendUa, sendDm]
    | ui | snrm | snrme | sarme | frmr | test | unknown =>
        simp [resets, t1Change, hstate, hu, hcmd]
  · cases hpf : ctrlPf f.ctrl <;> simp [resets, t1Change, hstate, hu, hpf, sendDm]

theorem ackView_stateFrmrError {s : Ctx} (hstate : s.currentState = .frmrError) (f : Received) :
    ackView (stateFrmrError st s f.ctrl) = (ackView s).next (s, f) := by
  rw [next_of_not_connected (by rw [hstate]; decide)]
  unfold stateFrmrError
  by_cases hu : isUframe f.ctrl
  · by_cases hcmd : uCmd f.ctrl = .sabm
    · simp [resets, hstate, hu, hcmd, ackView_setState hp, ackView_resetState, sendUa]
    · cases hcmd' : uCmd f.ctrl <;> simp_all [resets, t1Change]
  · simp [resets, t1Change, hstate, hu]

/-- What a frame does to V(A), V(S), the T1 flag and the armed number, in any state. -/
theorem dispatchFrame_ackView {s : Ctx} (hw : Windowed st s) (f : Received) :
    ackView (f.dispatch st s) = (ackView s).next (s, f) := by
  unfold Received.dispatch dispatchFrame
  extract_lets t
  have hview : (ackView s).next (s, f) = (ackView t).next (t, f) := rfl
  have hw : Windowed st t := hw
  rw [hview]
  cases hstate : t.currentState with
  | disconnected => exact ackView_stateDisconnected hp hstate f
  | connecting => exact ackView_stateConnecting hp hstate f
  | connected => exact ackView_stateConnected hp hw hstate f
  | disconnecting => exact ackView_stateDisconnecting hp hstate f
  | frmrError => exact ackView_stateFrmrError hp hstate f

end AckView

/-- A list of frames whose contexts follow one another, from the view `v` on. -/
inductive Chained : AckView → List (Ctx × Received) → Prop where
  | nil (v : AckView) : Chained v []
  | cons {v : AckView} {x : Ctx × Received} {frames : List (Ctx × Received)} (hview : ackView x.1 = v)
      (hrest : Chained (v.next x) frames) : Chained v (x :: frames)

theorem Chained.append_right {v : AckView} {left right : List (Ctx × Received)}
    (h : Chained v (left ++ right)) : Chained (left.foldl AckView.next v) right := by
  induction left generalizing v with
  | nil => exact h
  | cons x left ih =>
      cases h with
      | cons _ hrest => exact ih hrest

section Fold

variable {st : Station} {w : TxWindow}

/-- With nothing outstanding no frame moves the window. -/
theorem next_of_zero {x : Ctx × Received} (hva : x.1.va = 0) (hvs : x.1.vs = 0) :
    ((ackView x.1).next x).va = 0 ∧ ((ackView x.1).next x).vs = 0 := by
  have hacks : ¬acks x.1 x.2.ctrl := by
    intro hacks
    have hlt := ctrlNr_lt x.2.ctrl
    simp only [acks, Bool.and_eq_true, decide_eq_true_eq] at hacks
    obtain ⟨⟨-, hvalid⟩, hne⟩ := hacks
    rw [nrValid, hva, hvs, decide_eq_true_eq] at hvalid
    rw [hva] at hne
    simp only [u8, mod8] at hvalid
    omega
  by_cases hr : resets x.1 x.2.ctrl
  · simp only [AckView.next, if_pos hr, and_self]
  · simp only [AckView.next, if_neg hr, if_neg hacks]
    exact ⟨hva, hvs⟩

theorem Windowed.dispatch (hp : st.platform.Passive) {s : Ctx} (h : Windowed st s) (f : Received) :
    Windowed st (f.dispatch st s) := by
  intro hnone
  obtain ⟨hva, hvs⟩ := h hnone
  have hview := dispatchFrame_ackView hp h f
  obtain ⟨hva', hvs'⟩ := next_of_zero (x := (s, f)) hva hvs
  exact ⟨(congrArg AckView.va hview).trans hva', (congrArg AckView.vs hview).trans hvs'⟩

theorem ackView_rxBytes (hp : st.platform.Passive) {s : Ctx} (hw : Windowed st s) (bytes : List UInt8) :
    ackView (rxBytes st s bytes) = (chunkFrames st s bytes).foldl AckView.next (ackView s) :=
  rxBytes_view st ackView AckView.next (P := Windowed st) (fun _ _ => rfl) (fun _ _ h => h)
    (fun _ f h => ⟨dispatchFrame_ackView hp h f, h.dispatch hp f⟩) hw bytes

theorem chunkFrames_chained (hp : st.platform.Passive) {s : Ctx} (hw : Windowed st s)
    (bytes : List UInt8) : Chained (ackView s) (chunkFrames st s bytes) := by
  induction bytes generalizing s with
  | nil => exact .nil _
  | cons byte bytes ih =>
      have hbyte := rxByte_completed st s byte
      rw [chunkFrames]
      cases hc : completed s byte with
      | none =>
          rw [hc] at hbyte
          have hrest := @ih (rxByte st s byte) (by rw [hbyte]; exact hw)
          have hview : ackView (rxByte st s byte) = ackView s := by
            rw [hbyte]
            rfl
          rw [hview] at hrest
          exact hrest
      | some f =>
          rw [hc] at hbyte
          have hrest := @ih (rxByte st s byte) (by rw [hbyte]; exact hw.dispatch hp f)
          have hview : ackView (rxByte st s byte) = (ackView s).next (s, f) := by
            rw [hbyte, ← dispatchFrame_ackView hp hw]
            rfl
          rw [hview] at hrest
          exact .cons rfl hrest

/-- The test of `validate_nr` on a view. -/
def AckView.covers (v : AckView) (nr : Nat) : Bool :=
  u8 (((nr : Int) - v.va) % mod8) ≤ u8 (((v.vs : Int) - v.va) % mod8)

theorem acks_covers {s : Ctx} {ctrl : UInt8} (h : acks s ctrl) :
    (ackView s).covers (ctrlNr ctrl) ∧ ctrlNr ctrl ≠ s.va := by
  simp only [acks, Bool.and_eq_true, decide_eq_true_eq] at h
  exact ⟨h.1.2, h.2⟩

theorem next_of_not_resets {v : AckView} {x : Ctx × Received} (h : resets x.1 x.2.ctrl = false) :
    (v.next x).vs = v.vs ∧ (v.next x).va = if acks x.1 x.2.ctrl then ctrlNr x.2.ctrl else v.va := by
  simp only [AckView.next, h, Bool.false_eq_true, if_false, and_self]

theorem next_of_resets {v : AckView} {x : Ctx × Received} (h : resets x.1 x.2.ctrl) :
    (v.next x).vs = 0 ∧ (v.next x).va = 0 := by
  simp only [AckView.next, h, if_true, and_self]

/-- After a reset nothing moves V(A) or V(S) any more. -/
theorem fold_after_reset {v : AckView} {frames : List (Ctx × Received)} (h : Chained v frames)
    (hva : v.va = 0) (hvs : v.vs = 0) :
    (frames.foldl AckView.next v).va = 0 ∧ (frames.foldl AckView.next v).vs = 0 := by
  induction h with
  | nil v => exact ⟨hva, hvs⟩
  | @cons v x frames hview hrest ih =>
      have hnext : (v.next x).va = 0 ∧ (v.next x).vs = 0 := by
        rw [← hview]
        exact next_of_zero ((congrArg AckView.va hview).trans hva) ((congrArg AckView.vs hview).trans hvs)
      exact ih hnext.1 hnext.2

/-- How far V(A) has moved from `start`, in a window of `span` numbers. -/
structure Moved (v : AckView) (start moved span : Nat) : Prop where
  va : v.va = (start + moved) % mod8
  vs : v.vs = (start + span) % mod8
  start_lt : start < mod8
  moved_le : moved ≤ span
  span_lt : span < mod8

/-- A valid acknowledgement moves V(A) on. -/
theorem Moved.acks {x : Ctx × Received} {start moved span : Nat}
    (h : Moved (ackView x.1) start moved span) (hresets : resets x.1 x.2.ctrl = false)
    (hacks : acks x.1 x.2.ctrl) :
    ∃ moved', Moved ((ackView x.1).next x) start moved' span ∧ moved < moved' := by
  obtain ⟨hvs, hva⟩ := next_of_not_resets (v := ackView x.1) hresets
  obtain ⟨hcovers, hne⟩ := acks_covers hacks
  have hlt := ctrlNr_lt x.2.ctrl
  have hne' : ctrlNr x.2.ctrl ≠ (ackView x.1).va := hne
  rw [if_pos hacks] at hva
  rw [AckView.covers, h.va, h.vs, decide_eq_true_eq] at hcovers
  have hstart := h.start_lt
  have hspan := h.span_lt
  have hmoved := h.moved_le
  rw [h.va] at hne'
  simp only [u8, mod8] at *
  refine ⟨moved + (ctrlNr x.2.ctrl + 8 - (start + moved) % 8) % 8, ⟨?_, ?_, hstart, ?_, hspan⟩, ?_⟩
  · rw [hva]
    simp only [mod8]
    omega
  · rw [hvs, h.vs]
  · omega
  · omega

/-- Frames that do not reset keep the window and move V(A) by what they acknowledge. -/
theorem fold_moved {v : AckView} {frames : List (Ctx × Received)} (h : Chained v frames)
    {start moved span : Nat} (hmoved : Moved v start moved span)
    (hresets : ∀ y ∈ frames, resets y.1 y.2.ctrl = false) :
    ∃ moved', Moved (frames.foldl AckView.next v) start moved' span ∧ moved ≤ moved' ∧
      (moved' = moved ↔ ∀ y ∈ frames, acks y.1 y.2.ctrl = false) := by
  induction h generalizing moved with
  | nil v => exact ⟨moved, hmoved, Nat.le_refl _, by simp⟩
  | @cons v x frames hview hrest ih =>
      have hx := hresets x List.mem_cons_self
      have hrest' := fun y hy => hresets y (List.mem_cons_of_mem x hy)
      rw [← hview] at hmoved ih ⊢
      cases hacks : acks x.1 x.2.ctrl with
      | true =>
          obtain ⟨moved₁, hmoved₁, hlt⟩ := hmoved.acks hx hacks
          obtain ⟨moved', hend, hle, -⟩ := ih hmoved₁ hrest'
          refine ⟨moved', hend, by omega, ?_⟩
          simp only [List.mem_cons, forall_eq_or_imp, hacks, Bool.true_eq_false, false_and,
            iff_false]
          omega
      | false =>
          obtain ⟨hvs, hva⟩ := next_of_not_resets (v := ackView x.1) hx
          rw [hacks, if_neg (by simp)] at hva
          have hstill : Moved ((ackView x.1).next x) start moved span :=
            ⟨hva.trans hmoved.va, hvs.trans hmoved.vs, hmoved.start_lt, hmoved.moved_le,
              hmoved.span_lt⟩
          obtain ⟨moved', hend, hle, hiff⟩ := ih hstill hrest'
          refine ⟨moved', hend, hle, ?_⟩
          rw [hiff]
          simp only [List.mem_cons, forall_eq_or_imp, hacks, true_and]

theorem Moved.covers_iff {v : AckView} {start moved span : Nat} (h : Moved v start moved span) :
    v.covers start ↔ moved = 0 := by
  have hstart := h.start_lt
  have hspan := h.span_lt
  have hmoved := h.moved_le
  rw [AckView.covers, h.va, h.vs, decide_eq_true_eq]
  simp only [u8, mod8] at *
  omega

/-- Whether the window still covers the number V(A) had before some frames. -/
theorem fold_covers_iff {v : AckView} {frames : List (Ctx × Received)} (h : Chained v frames)
    {start span : Nat} (hmoved : Moved v start 0 span) :
    (frames.foldl AckView.next v).covers start ↔
      (∀ y ∈ frames, resets y.1 y.2.ctrl = false ∧ acks y.1 y.2.ctrl = false) ∨
        start = 0 ∧ ∃ y ∈ frames, resets y.1 y.2.ctrl = true := by
  by_cases hresets : ∃ y ∈ frames, resets y.1 y.2.ctrl = true
  · obtain ⟨y, hy, hreset⟩ := hresets
    obtain ⟨left, right, rfl⟩ := List.append_of_mem hy
    have hright := h.append_right
    have hstart := hmoved.start_lt
    cases hright with
    | cons _ hright =>
        obtain ⟨hvs, hva⟩ := next_of_resets (v := left.foldl AckView.next v) hreset
        obtain ⟨hva', hvs'⟩ := fold_after_reset hright hva hvs
        rw [List.foldl_append, List.foldl_cons, AckView.covers, hva', hvs', decide_eq_true_eq]
        constructor
        · intro hcovers
          refine Or.inr ⟨?_, y, hy, hreset⟩
          simp only [u8, mod8] at *
          omega
        · rintro (hall | ⟨rfl, -⟩)
          · exact absurd hreset (by simp [(hall y hy).1])
          · decide
  · have hnone : ∀ y ∈ frames, resets y.1 y.2.ctrl = false := by
      intro y hy
      by_contra hreset
      exact hresets ⟨y, hy, by simpa using hreset⟩
    obtain ⟨moved', hend, -, hiff⟩ := fold_moved h hmoved hnone
    rw [hend.covers_iff, hiff]
    constructor
    · exact fun hacks => Or.inl fun y hy => ⟨hnone y hy, hacks y hy⟩
    · rintro (hall | ⟨-, hreset⟩)
      · exact fun y hy => (hall y hy).2
      · exact absurd hreset hresets

/-! ### The armed number -/

def armsFrame (x : Ctx × Received) : Bool := arms x.1 x.2.address x.2.ctrl

/-- Frames that arm nothing keep what is armed. -/
theorem fold_not_armed {v : AckView} {frames : List (Ctx × Received)}
    (h : ∀ y ∈ frames, armsFrame y = false) :
    (frames.foldl AckView.next v).retransmitPending = v.retransmitPending ∧
      (frames.foldl AckView.next v).retransmitFrom = v.retransmitFrom := by
  induction frames generalizing v with
  | nil => exact ⟨rfl, rfl⟩
  | cons x frames ih =>
      have hx : arms x.1 x.2.address x.2.ctrl = false := h x List.mem_cons_self
      have hnext : (v.next x).retransmitPending = v.retransmitPending ∧
          (v.next x).retransmitFrom = v.retransmitFrom := by
        simp only [AckView.next, hx]
        cases resets x.1 x.2.ctrl <;> simp
      obtain ⟨hpending, hfrom⟩ := ih (v := v.next x) fun y hy => h y (List.mem_cons_of_mem x hy)
      exact ⟨hpending.trans hnext.1, hfrom.trans hnext.2⟩

theorem fold_vs_lt {v : AckView} (frames : List (Ctx × Received)) (h : v.vs < mod8) :
    (frames.foldl AckView.next v).vs < mod8 := by
  induction frames generalizing v with
  | nil => exact h
  | cons x frames ih =>
      refine ih ?_
      cases hr : resets x.1 x.2.ctrl with
      | true =>
          rw [(next_of_resets (v := v) hr).1]
          exact Nat.zero_lt_succ 7
      | false =>
          rw [(next_of_not_resets (v := v) hr).1]
          exact h

/-- A frame that arms puts V(A) on its N(R) and arms that number. -/
theorem next_of_arms {x : Ctx × Received} (h : armsFrame x) (hvs : (ackView x.1).vs < mod8) :
    ((ackView x.1).next x).retransmitPending = true ∧
      ((ackView x.1).next x).retransmitFrom = ctrlNr x.2.ctrl ∧
      ∃ span, Moved ((ackView x.1).next x) (ctrlNr x.2.ctrl) 0 span := by
  have harms : arms x.1 x.2.address x.2.ctrl = true := h
  have hparts := harms
  simp only [arms, Bool.and_eq_true, decide_eq_true_eq] at hparts
  obtain ⟨⟨⟨⟨hstate, hsframe⟩, hvalid⟩, hne⟩, -⟩ := hparts
  have hu : isUframe x.2.ctrl = false := by
    rw [Bool.eq_false_iff, ne_eq, isUframe_iff]
    rw [isSframe_iff] at hsframe
    omega
  have hresets : resets x.1 x.2.ctrl = false := by simp [resets, hu]
  have hva : (if acks x.1 x.2.ctrl then ctrlNr x.2.ctrl else x.1.va) = ctrlNr x.2.ctrl := by
    by_cases heq : ctrlNr x.2.ctrl = x.1.va
    · rw [← heq, ite_self]
    · have hacks : acks x.1 x.2.ctrl = true := by simp [acks, hstate, hu, hvalid, heq]
      rw [if_pos hacks]
  have hlt := ctrlNr_lt x.2.ctrl
  have hnext : (ackView x.1).next x = ⟨ctrlNr x.2.ctrl, x.1.vs,
      (t1Change x.1 x.2.ctrl).getD x.1.t1Active, true, ctrlNr x.2.ctrl⟩ := by
    simp [AckView.next, hresets, harms, ackView, hva]
  have hvs' : x.1.vs < mod8 := hvs
  rw [hnext]
  refine ⟨rfl, rfl, (x.1.vs + 8 - ctrlNr x.2.ctrl) % 8, ?_, ?_, hlt, Nat.zero_le _,
    Nat.mod_lt _ (by decide)⟩
  · exact (Nat.mod_eq_of_lt hlt).symm
  · simp only [mod8] at *
    omega

/-- No frame after the last one that arms a retransmission moves the window; or the armed number is 0
and a later frame resets. -/
def Undisturbed (frames : List (Ctx × Received)) : Prop :=
  ∀ left x right, frames = left ++ x :: right → armsFrame x →
    (∀ y ∈ right, armsFrame y = false) →
      (∀ y ∈ right, resets y.1 y.2.ctrl = false ∧ acks y.1 y.2.ctrl = false) ∨
        ctrlNr x.2.ctrl = 0 ∧ ∃ y ∈ right, resets y.1 y.2.ctrl = true

/-- What the last frame that arms says about the view at the end. -/
theorem fold_last_arms {v : AckView} {left right : List (Ctx × Received)} {x : Ctx × Received}
    (h : Chained v (left ++ x :: right)) (hvs : v.vs < mod8) (harms : armsFrame x)
    (hright : ∀ y ∈ right, armsFrame y = false) :
    ((left ++ x :: right).foldl AckView.next v).retransmitPending = true ∧
      ((left ++ x :: right).foldl AckView.next v).retransmitFrom = ctrlNr x.2.ctrl ∧
      (((left ++ x :: right).foldl AckView.next v).covers (ctrlNr x.2.ctrl) ↔
        (∀ y ∈ right, resets y.1 y.2.ctrl = false ∧ acks y.1 y.2.ctrl = false) ∨
          ctrlNr x.2.ctrl = 0 ∧ ∃ y ∈ right, resets y.1 y.2.ctrl = true) := by
  have htail := h.append_right
  cases htail with
  | cons hview hrest =>
      have hvs' : (ackView x.1).vs < mod8 := by
        rw [hview]
        exact fold_vs_lt left hvs
      obtain ⟨hpending, hfrom, span, hmoved⟩ := next_of_arms harms hvs'
      rw [← hview] at hrest
      obtain ⟨hpending', hfrom'⟩ := fold_not_armed (v := (ackView x.1).next x) hright
      rw [List.foldl_append, List.foldl_cons, ← hview]
      exact ⟨hpending'.trans hpending, hfrom'.trans hfrom, fold_covers_iff hrest hmoved⟩

theorem exists_last_arms {frames : List (Ctx × Received)} (h : ∃ x ∈ frames, armsFrame x) :
    ∃ left x right, frames = left ++ x :: right ∧ armsFrame x ∧
      ∀ y ∈ right, armsFrame y = false := by
  induction frames with
  | nil => exact absurd h (by simp)
  | cons z frames ih =>
      by_cases hrest : ∃ x ∈ frames, armsFrame x
      · obtain ⟨left, x, right, rfl, hx, hright⟩ := ih hrest
        exact ⟨z :: left, x, right, rfl, hx, hright⟩
      · obtain ⟨x, hx, harms⟩ := h
        rcases List.mem_cons.mp hx with rfl | hx
        · refine ⟨[], x, frames, rfl, harms, fun y hy => ?_⟩
          by_contra hy'
          exact hrest ⟨y, hy, by simpa using hy'⟩
        · exact absurd ⟨x, hx, harms⟩ hrest

/-- What is armed after a chunk is in the window just when the frames leave it undisturbed. -/
theorem covers_iff_undisturbed (hw : st.txWindow = some w) (hp : st.platform.Passive) {s : Ctx}
    (hvs : s.vs < mod8) (hpending : s.retransmitPending = false) (bytes : List UInt8) :
    ((rxBytes st s bytes).retransmitPending = true →
        nrValid (rxBytes st s bytes) (rxBytes st s bytes).retransmitFrom = true) ↔
      Undisturbed (chunkFrames st s bytes) := by
  have hview := ackView_rxBytes hp (.of_some hw s) bytes
  have hchain := chunkFrames_chained hp (.of_some hw s) bytes
  have hpend : (rxBytes st s bytes).retransmitPending =
      ((chunkFrames st s bytes).foldl AckView.next (ackView s)).retransmitPending :=
    congrArg AckView.retransmitPending hview
  have hvalid : nrValid (rxBytes st s bytes) (rxBytes st s bytes).retransmitFrom =
      ((chunkFrames st s bytes).foldl AckView.next (ackView s)).covers
        ((chunkFrames st s bytes).foldl AckView.next (ackView s)).retransmitFrom := by
    rw [← hview]
    rfl
  rw [hpend, hvalid]
  generalize chunkFrames st s bytes = frames at *
  constructor
  · rintro hok left x right rfl harms hright
    obtain ⟨hpending', hfrom, hiff⟩ := fold_last_arms hchain hvs harms hright
    have hcovers := hok hpending'
    rw [hfrom] at hcovers
    exact hiff.mp hcovers
  · intro hundisturbed hpending'
    by_cases harmed : ∃ x ∈ frames, armsFrame x
    · obtain ⟨left, x, right, rfl, harms, hright⟩ := exists_last_arms harmed
      obtain ⟨-, hfrom, hiff⟩ := fold_last_arms hchain hvs harms hright
      rw [hfrom]
      exact hiff.mpr (hundisturbed left x right rfl harms hright)
    · have hnone : ∀ y ∈ frames, armsFrame y = false := by
        intro y hy
        by_contra hy'
        exact harmed ⟨y, hy, by simpa using hy'⟩
      have hstill := (fold_not_armed (v := ackView s) hnone).1.trans hpending
      rw [hstill] at hpending'
      exact absurd hpending' (by decide)

/-- The slot indices of a trace. -/
def slotReads (trace : List Obs) : List Nat :=
  trace.filterMap fun
    | .slotRead index => some index
    | _ => none

theorem slotReads_append (l r : List Obs) : slotReads (l ++ r) = slotReads l ++ slotReads r :=
  List.filterMap_append

theorem slotReads_obs (crc : CrcOps) (m : Moment) (f : Frame) : slotReads (f.obs crc m) = [] := by
  refine List.filterMap_eq_nil_iff.mpr fun o ho => ?_
  rcases Frame.mem_obs ho with rfl | ⟨byte, flush, rfl⟩
  · rfl
  · rfl

/-- The indices of a run of `retransmit_outstanding`. -/
def readIndices (st : Station) (w : TxWindow) (s : Ctx) : List Nat :=
  slotReads ((retransmitOutstanding st w s).trace.drop s.trace.length)

theorem retransmitLoop_reads (endVs fuel slotIdx : Nat) (s : Ctx) (hslot : slotIdx < w.slotCount) :
    ∃ os, (retransmitLoop st w endVs fuel slotIdx s).trace = s.trace ++ os ∧
      ∀ index ∈ slotReads os, index < w.slotCount := by
  induction fuel generalizing slotIdx s with
  | zero => exact ⟨[], (List.append_nil _).symm, by simp [slotReads]⟩
  | succ fuel ih =>
      simp only [retransmitLoop, frameSend_octets]
      split_ifs
      · exact ⟨[], (List.append_nil _).symm, by simp [slotReads]⟩
      · generalize hf : (⟨(s.log (.slotRead slotIdx)).peerAddress,
          iCtrl (s.log (.slotRead slotIdx)).vs (s.log (.slotRead slotIdx)).vr false,
          readSlot w (s.log (.slotRead slotIdx)) slotIdx⟩ : Frame) = f
        obtain ⟨os, htrace, hreads⟩ := ih ((slotIdx + 1) % w.slotCount)
          { (s.log (.slotRead slotIdx)).put st f with
            vs := (((s.log (.slotRead slotIdx)).put st f).vs + 1) % mod8 }
          (Nat.mod_lt _ w.slotCount_pos)
        refine ⟨[.slotRead slotIdx] ++ (f.obs st.crc s.moment ++ os), ?_, ?_⟩
        · rw [htrace]
          simp [Ctx.put, Ctx.log, Ctx.moment]
        · intro index hindex
          rw [slotReads_append, slotReads_append, slotReads_obs, List.nil_append] at hindex
          rcases List.mem_append.mp hindex with hindex | hindex
          · rw [List.mem_singleton.mp hindex]
            exact hslot
          · exact hreads index hindex

/-- From a number of the window the first index is that of its slot. -/
theorem WindowInv.slotIdx_lt {s : Ctx} (h : WindowInv w s) (hvalid : nrValid s s.retransmitFrom) :
    u8 (((s.txNextSlot : Int) + w.slotCount -
      u8 (((s.vs : Int) - s.retransmitFrom + mod8).tmod mod8)).tmod w.slotCount) < w.slotCount := by
  have hfrom := h.from_lt
  have hsent := h.sent_le
  have hacked := h.acked_le
  have hcount := w.slotCount_le
  have hpos := w.slotCount_pos
  have hout : u8 (((s.vs : Int) - s.retransmitFrom + mod8).tmod mod8) ≤ w.slotCount := by
    rw [nrValid, decide_eq_true_eq] at hvalid
    have hnonneg : (0 : Int) ≤ (s.vs : Int) - s.retransmitFrom + mod8 := by
      simp only [mod8] at *
      omega
    rw [Int.tmod_eq_emod_of_nonneg hnonneg]
    simp only [u8, h.va, h.vs, mod8] at *
    omega
  generalize u8 (((s.vs : Int) - s.retransmitFrom + mod8).tmod mod8) = out at *
  have hnonneg : (0 : Int) ≤ (s.txNextSlot : Int) + w.slotCount - out := by omega
  have hmod : ((s.txNextSlot : Int) + w.slotCount - out).tmod w.slotCount =
      ((s.txNextSlot + w.slotCount - out) % w.slotCount : Nat) := by
    rw [Int.tmod_eq_emod_of_nonneg hnonneg]
    push_cast [show out ≤ s.txNextSlot + w.slotCount by omega]
    rfl
  have hlt := Nat.mod_lt (s.txNextSlot + w.slotCount - out) hpos
  rw [hmod, u8_natCast (by omega)]
  exact hlt

/-- A retransmission from a number of the window reads slots that are there. -/
theorem WindowInv.readIndices_lt {s : Ctx} (h : WindowInv w s)
    (hvalid : nrValid s s.retransmitFrom) : ∀ index ∈ readIndices st w s, index < w.slotCount := by
  have hslot := h.slotIdx_lt hvalid
  unfold readIndices retransmitOutstanding
  extract_lets t endVs outstanding slotIdx u v
  obtain ⟨os, htrace, hreads⟩ := @retransmitLoop_reads st w endVs 8 slotIdx u hslot
  have htrace' : (t1Start st v).trace =
      s.trace ++ (os ++ if st.platform.t1Start then [.t1Start st.config.t1Ms] else []) := by
    have hstart : (t1Start st v).trace =
        v.trace ++ if st.platform.t1Start then [.t1Start st.config.t1Ms] else [] := rfl
    rw [hstart, htrace, List.append_assoc]
  intro index hindex
  rw [htrace', List.drop_left, slotReads_append] at hindex
  rcases List.mem_append.mp hindex with hindex | hindex
  · exact hreads index hindex
  · split_ifs at hindex <;> simp [slotReads] at hindex

theorem retransmitLoop_pending (endVs fuel slotIdx : Nat) (s : Ctx) :
    (retransmitLoop st w endVs fuel slotIdx s).retransmitPending = s.retransmitPending := by
  induction fuel generalizing slotIdx s with
  | zero => rfl
  | succ fuel ih =>
      simp only [retransmitLoop, frameSend_octets]
      split_ifs
      · rfl
      · rw [ih]
        rfl

theorem setState_pending (hp : st.platform.Passive) (s : Ctx) (newState : State) (event : Event) :
    (setState st s newState event).retransmitPending = s.retransmitPending :=
  congrArg AckView.retransmitPending (ackView_setState hp s newState event)

theorem resetState_pending (s : Ctx) :
    (resetState st s).retransmitPending = s.retransmitPending :=
  congrArg AckView.retransmitPending (ackView_resetState s)

theorem rxBytes_pending (hp : st.platform.Passive) (hnone : st.txWindow = none) (s : Ctx)
    (bytes : List UInt8) : (rxBytes st s bytes).retransmitPending = s.retransmitPending := by
  refine rxBytes_induct (P := fun t => t.retransmitPending = s.retransmitPending)
    (Q := fun _ t => t.retransmitPending = s.retransmitPending) (fun _ _ h => h)
    (fun _ _ _ _ h => h) ?_ (fun _ _ h => h) rfl bytes
  intro ctrl t t' heffect ht
  cases heffect with
  | reset => exact (resetState_pending t).trans ht
  | data payload => exact (congrArg AckView.retransmitPending (ackView_onData hp t payload)).trans ht
  | event event => exact (congrArg AckView.retransmitPending (ackView_onEvent hp t event)).trans ht
  | arm fromSeq hsome => exact absurd hnone hsome
  | put | t1Start | t1Stop | t2Start | t2Stop | link | ack | nullWindow | receive | rejException
  | remoteBusy | frmr => exact ht

theorem dataIn_not_pending (hp : st.platform.Passive) {s : Ctx} (h : s.retransmitPending = false)
    (bytes : List UInt8) : (dataIn st s bytes).retransmitPending = false := by
  unfold dataIn retransmitIfPending
  by_cases hpending : (rxBytes st s bytes).retransmitPending = true
  · rw [if_pos hpending]
    cases hw : st.txWindow with
    | none =>
        rw [rxBytes_pending hp hw, h] at hpending
        exact absurd hpending (by decide)
    | some w => exact retransmitLoop_pending _ _ _ _
  · rw [if_neg hpending]
    simpa using hpending

theorem frameSend_pending (s : Ctx) (address ctrl : UInt8) (data : Payload) :
    (frameSend st s address ctrl data).retransmitPending = s.retransmitPending := by
  unfold frameSend
  rw [frameEnd_eq, emitAll_eq, frameBegin_eq]
  split_ifs <;> rfl

theorem transmitU_pending (s : Ctx) (ctrl address : UInt8) (data : Payload) :
    (transmitU st s ctrl address data).2.retransmitPending = s.retransmitPending := by
  unfold transmitU
  split_ifs
  · rfl
  · rfl
  · exact frameSend_pending s address ctrl data

theorem acceptI_pending (s : Ctx) {data : Payload} (hdata : data.NonNull) :
    (acceptI st w s data).retransmitPending = s.retransmitPending := by
  rw [acceptI_eq s hdata]
  extract_lets next logged stored sent stopped
  have hstopped : stopped.retransmitPending = s.retransmitPending := rfl
  by_cases hout : outstanding s = 0
  · rw [if_pos hout]
    exact hstopped
  · rw [if_neg hout]
    exact hstopped

/-- Every call leaves nothing armed. -/
theorem Call.not_pending (hp : st.platform.Passive) {s : Ctx}
    (h : s.retransmitPending = false) (call : Call) (hlegal : call.Legal) :
    (call.run st s).retransmitPending = false := by
  rw [← h]
  cases call with
  | t1Expired =>
      simp only [run, AtcHdlc.t1Expired, sendU_eq, sendRr, sendRnr, sendS_eq, retransmitFrmr_eq]
      by_cases hlost : st.config.maxRetries > 0 ∧ (s.n2 + 1) % 256 > st.config.maxRetries
      · rw [if_pos hlost, resetState_pending, setState_pending hp]
      · rw [if_neg hlost]
        split
        · rfl
        · rfl
        · split_ifs <;> rfl
        · rfl
        · rfl
  | t2Expired =>
      simp only [run, AtcHdlc.t2Expired, sendRr, sendRnr, sendS_eq]
      split_ifs <;> rfl
  | linkSetup peerAddr =>
      simp only [run, AtcHdlc.linkSetup, sendU_eq]
      split_ifs
      · rfl
      · exact setState_pending hp _ _ _
  | disconnect =>
      simp only [run, AtcHdlc.disconnect, sendU_eq]
      split_ifs
      · rfl
      · exact setState_pending hp _ _ _
  | linkReset =>
      simp only [run, AtcHdlc.linkReset, sendU_eq]
      rw [setState_pending hp]
      exact resetState_pending s
  | abort => exact resetState_pending _
  | setLocalBusy busy =>
      simp only [run, AtcHdlc.setLocalBusy, sendRr, sendS_eq]
      split_ifs <;> rfl
  | dataIn bytes => exact (dataIn_not_pending hp h bytes).trans h.symm
  | transmitUi address data => exact transmitU_pending s _ address data
  | transmitTest address data => exact transmitU_pending s _ address data
  | transmitI data =>
      simp only [run, AtcHdlc.transmitI]
      cases st.txWindow with
      | none => split_ifs <;> rfl
      | some w =>
          simp only
          split_ifs
          · rfl
          · rfl
          · rfl
          · rfl
          · rfl
          · exact acceptI_pending s hlegal
  | transmitUiStart address =>
      simp only [run, AtcHdlc.transmitUiStart, frameBegin_eq]
  | transmitUiData data =>
      simp only [run, AtcHdlc.transmitUiData, emitAll_eq]
      split_ifs <;> rfl
  | transmitUiEnd =>
      simp only [run, AtcHdlc.transmitUiEnd, frameEnd_eq]
      rfl

theorem Reachable.not_pending (hp : st.platform.Passive) {mem : Memory} {s : Ctx}
    (h : Reachable st mem s) : s.retransmitPending = false :=
  h.invariant (P := fun t => t.retransmitPending = false) rfl
    fun _ hs call hlegal => Call.not_pending hp hs call hlegal

/-- What the retransmission at the end of a chunk has to meet, where it runs: the number it starts
from is in the window, and the slots it reads are there. -/
def RetransmitOk (st : Station) (w : TxWindow) (s : Ctx) (bytes : List UInt8) : Prop :=
  let t := rxBytes st s bytes
  t.retransmitPending = true →
    nrValid t t.retransmitFrom = true ∧ ∀ index ∈ readIndices st w t, index < w.slotCount

/-- In every reachable context and for every chunk, the retransmission stays in the window just when no
frame after the last one that armed it disturbs the window. -/
theorem retransmitOk_iff_undisturbed (hw : st.txWindow = some w) (hp : st.platform.Passive)
    {mem : Memory} {s : Ctx} (h : Reachable st mem s) (bytes : List UInt8) :
    RetransmitOk st w s bytes ↔ Undisturbed (chunkFrames st s bytes) := by
  have hinv := h.windowInv hw hp
  rw [← covers_iff_undisturbed hw hp hinv.vs_lt (h.not_pending hp) bytes]
  constructor
  · exact fun hok hpending => (hok hpending).1
  · intro hvalid hpending
    exact ⟨hvalid hpending, (hinv.rxBytes hp bytes).readIndices_lt (hvalid hpending)⟩

/-- A connected station with a window of three slots and two I-frames on the way. -/
def twoOutstanding : Ctx :=
  [.linkSetup 0x02, .dataIn (Frame.octets crcOpsDefault ⟨0x02, uCtrl uUa true, []⟩),
    .transmitI (.octets [0x11]), .transmitI (.octets [0x22])].foldl
    (Call.run (mockStation 0x01 3 threeSlots_pos threeSlots_le))
    (initCtx (mockStation 0x01 3 threeSlots_pos threeSlots_le) zeroMemory)

theorem twoOutstanding_reachable :
    Reachable (mockStation 0x01 3 (by decide) (by decide)) zeroMemory twoOutstanding :=
  .call (.transmitI (.octets [0x22]))
    (.call (.transmitI (.octets [0x11]))
      (.call (.dataIn (Frame.octets crcOpsDefault ⟨0x02, uCtrl uUa true, []⟩))
        (.call (.linkSetup 0x02) .init trivial) trivial)
      (Or.inl rfl))
    (Or.inl rfl)

theorem retransmitOk_iff_undisturbed_mock :
    let st := mockStation 0x01 3 (by decide) (by decide)
    let w : TxWindow := ⟨1024, 3, by decide, by decide⟩
    let rej := Frame.octets crcOpsDefault ⟨0x01, sCtrl sRej 1 false, []⟩
    RetransmitOk st w twoOutstanding rej ↔ Undisturbed (chunkFrames st twoOutstanding rej) :=
  retransmitOk_iff_undisturbed rfl mockPlatform_passive twoOutstanding_reachable _

/-- A REJ and a SABM in one chunk: the number that the REJ armed is outside of the window that the SABM
leaves, and the retransmission begins with slot 255 of three. -/
theorem retransmission_leaves_window :
    let st := mockStation 0x01 3 (by decide) (by decide)
    let w : TxWindow := ⟨1024, 3, by decide, by decide⟩
    let chunk := Frame.octets crcOpsDefault ⟨0x01, sCtrl sRej 1 false, []⟩ ++
      Frame.octets crcOpsDefault ⟨0x01, uCtrl uSabm true, []⟩
    Reachable st zeroMemory twoOutstanding ∧ ¬RetransmitOk st w twoOutstanding chunk ∧
      255 ∈ readIndices st w (rxBytes st twoOutstanding chunk) := by
  intro st w chunk
  have hpending : (rxBytes st twoOutstanding chunk).retransmitPending = true := by decide +kernel
  have hread : 255 ∈ readIndices st w (rxBytes st twoOutstanding chunk) := by decide +kernel
  refine ⟨twoOutstanding_reachable, fun hok => ?_, hread⟩
  exact absurd ((hok hpending).2 255 hread) (by decide)

end Fold

end AtcHdlc
