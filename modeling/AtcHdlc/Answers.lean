import AtcHdlc.Retransmit

/-! What a frame makes of a context, beside the view of `AckView`: the link state, V(R), the flags of the
receive side, and everything that is seen of it from below (the frames on the line) and from above (the
calls of `on_data` and `on_event`). Each frame is described once, in `LinkView.next`; what is proved of a
received chunk is proved of these descriptions. -/

namespace AtcHdlc

/-- What is on the line: the marks of the frames and the calls of `on_send`. -/
def onLine (trace : List Obs) : List Obs :=
  trace.filter fun
    | .frame _ _ _ | .send _ _ => true
    | _ => false

/-- The calls of `on_data` and `on_event`. -/
def upper (trace : List Obs) : List Obs :=
  trace.filter fun
    | .data _ | .event _ => true
    | _ => false

/-- The I-frames accepted in sequence since the last `reset_state`. -/
def received (trace : List Obs) : List (List UInt8) :=
  trace.foldl (fun l o => match o with
    | .reset => []
    | .received payload => l ++ [payload]
    | _ => l) []

/-- Whether an FRMR has been sent since the last `reset_state`. -/
def frmrSent (trace : List Obs) : Bool :=
  trace.foldl (fun b o => match o with
    | .reset => false
    | .frame _ ctrl _ => b || ctrl == uCtrl uFrmr false
    | _ => b) false

/-- The number of runs of `reset_state`. -/
def resetCount (trace : List Obs) : Nat := trace.count .reset

/-- A numbered frame that carries an N(R). -/
def carries (ctrl : UInt8) (nr : Nat) : Bool := (isIframe ctrl || isSframe ctrl) && ctrlNr ctrl == nr

/-- How an observation changes the number of the next I-frame and whether an acknowledgement with that
number is owed. -/
def debtStep (d : Nat × Bool) : Obs → Nat × Bool
  | .reset => (0, false)
  | .received _ => ((d.1 + 1) % mod8, true)
  | .frame _ ctrl _ => (d.1, d.2 && !carries ctrl d.1)
  | _ => d

/-- The number of I-frames accepted since the last `reset_state`, modulo 8, and whether no numbered frame
that carries it has been begun since the last of them. -/
def debt (trace : List Obs) : Nat × Bool := trace.foldl debtStep (0, false)

theorem onLine_append (l r : List Obs) : onLine (l ++ r) = onLine l ++ onLine r :=
  List.filter_append ..

theorem upper_append (l r : List Obs) : upper (l ++ r) = upper l ++ upper r :=
  List.filter_append ..

/-- Observations that begin no session and no frame and add no payload. -/
def Plain : Obs → Prop
  | .reset | .received _ | .frame _ _ _ => False
  | _ => True

/-- A fold that plain observations leave alone. -/
theorem foldl_plain {β : Type} {step : β → Obs → β} (hplain : ∀ b o, Plain o → step b o = b) (b : β)
    {os : List Obs} (h : ∀ o ∈ os, Plain o) : os.foldl step b = b := by
  induction os with
  | nil => rfl
  | cons o os ih =>
      rw [List.foldl_cons, hplain b o (h o List.mem_cons_self)]
      exact ih fun o' ho' => h o' (List.mem_cons_of_mem _ ho')

theorem received_append (trace : List Obs) {os : List Obs} (h : ∀ o ∈ os, Plain o) :
    received (trace ++ os) = received trace := by
  rw [received, List.foldl_append]
  refine foldl_plain (fun l o ho => ?_) _ h
  cases o with
  | reset | received | frame => exact ho.elim
  | _ => rfl

theorem frmrSent_append (trace : List Obs) {os : List Obs} (h : ∀ o ∈ os, Plain o) :
    frmrSent (trace ++ os) = frmrSent trace := by
  rw [frmrSent, List.foldl_append]
  refine foldl_plain (fun b o ho => ?_) _ h
  cases o with
  | reset | received | frame => exact ho.elim
  | _ => rfl

theorem debt_append (trace : List Obs) {os : List Obs} (h : ∀ o ∈ os, Plain o) :
    debt (trace ++ os) = debt trace := by
  rw [debt, List.foldl_append]
  refine foldl_plain (fun d o ho => ?_) _ h
  cases o with
  | reset | received | frame => exact ho.elim
  | _ => rfl

theorem resetCount_append (trace : List Obs) {os : List Obs} (h : ∀ o ∈ os, Plain o) :
    resetCount (trace ++ os) = resetCount trace := by
  have hnone : os.count .reset = 0 := List.count_eq_zero.mpr fun hmem => h _ hmem
  rw [resetCount, List.count_append, hnone, Nat.add_zero]
  rfl

/-- The calls of `on_send` for a frame. -/
theorem plain_of_mem_sends {crc : CrcOps} {m : Moment} {f : Frame} {o : Obs} (h : o ∈ (f.obs crc m).tail) :
    Plain o := by
  rcases Frame.mem_obs (List.mem_of_mem_tail h) with rfl | ⟨byte, flush, rfl⟩
  · simp [Frame.obs] at h
  · trivial

theorem received_obs (trace : List Obs) (crc : CrcOps) (m : Moment) (f : Frame) :
    received (trace ++ f.obs crc m) = received trace := by
  have hhead : received (trace ++ [.frame f.address f.ctrl m]) = received trace := by
    rw [received, List.foldl_append]
    rfl
  have hcons : f.obs crc m = .frame f.address f.ctrl m :: (f.obs crc m).tail := rfl
  rw [hcons, List.append_cons, received_append _ fun o ho => plain_of_mem_sends ho, hhead]

theorem frmrSent_obs (trace : List Obs) (crc : CrcOps) (m : Moment) (f : Frame) :
    frmrSent (trace ++ f.obs crc m) = (frmrSent trace || f.ctrl == uCtrl uFrmr false) := by
  have hhead : frmrSent (trace ++ [.frame f.address f.ctrl m]) =
      (frmrSent trace || f.ctrl == uCtrl uFrmr false) := by
    rw [frmrSent, List.foldl_append]
    rfl
  have hcons : f.obs crc m = .frame f.address f.ctrl m :: (f.obs crc m).tail := rfl
  rw [hcons, List.append_cons, frmrSent_append _ fun o ho => plain_of_mem_sends ho, hhead]

theorem debt_obs (trace : List Obs) (crc : CrcOps) (m : Moment) (f : Frame) :
    debt (trace ++ f.obs crc m) = ((debt trace).1, (debt trace).2 && !carries f.ctrl (debt trace).1) := by
  have hhead : debt (trace ++ [.frame f.address f.ctrl m]) =
      ((debt trace).1, (debt trace).2 && !carries f.ctrl (debt trace).1) := by
    rw [debt, List.foldl_append]
    rfl
  have hcons : f.obs crc m = .frame f.address f.ctrl m :: (f.obs crc m).tail := rfl
  rw [hcons, List.append_cons, debt_append _ fun o ho => plain_of_mem_sends ho, hhead]

theorem resetCount_obs (trace : List Obs) (crc : CrcOps) (m : Moment) (f : Frame) :
    resetCount (trace ++ f.obs crc m) = resetCount trace := by
  have hnone : (f.obs crc m).count .reset = 0 := by
    refine List.count_eq_zero.mpr fun hmem => ?_
    rcases Frame.mem_obs hmem with h | ⟨byte, flush, h⟩
    · exact absurd h (by simp)
    · exact absurd h (by simp)
  rw [resetCount, List.count_append, hnone, Nat.add_zero]
  rfl

theorem onLine_obs (crc : CrcOps) (m : Moment) (f : Frame) : onLine (f.obs crc m) = f.obs crc m := by
  refine List.filter_eq_self.mpr fun o ho => ?_
  rcases Frame.mem_obs ho with rfl | ⟨byte, flush, rfl⟩
  · rfl
  · rfl

theorem upper_obs (crc : CrcOps) (m : Moment) (f : Frame) : upper (f.obs crc m) = [] := by
  refine List.filter_eq_nil_iff.mpr fun o ho => ?_
  rcases Frame.mem_obs ho with rfl | ⟨byte, flush, rfl⟩
  · simp
  · simp

theorem and_seven (n : Nat) : n &&& 0x07 = n % 8 := Nat.and_two_pow_sub_one_eq_mod n 3

theorem and_three (n : Nat) : n &&& 0x03 = n % 4 := Nat.and_two_pow_sub_one_eq_mod n 2

/-- The fields of a supervisory control octet. -/
theorem sCtrl_fields (s nr : Nat) (pf : Bool) :
    isSframe (sCtrl s nr pf) = true ∧ ctrlS (sCtrl s nr pf) = s % 4 ∧
      ctrlNr (sCtrl s nr pf) = nr % 8 ∧ ctrlPf (sCtrl s nr pf) = pf := by
  have htable : ∀ a : Fin 4, ∀ b : Fin 8, ∀ pf : Bool,
      let ctrl : UInt8 := .ofNat (0x01 ||| a.val <<< 2 ||| (if pf then 1 else 0) <<< 4 ||| b.val <<< 5)
      isSframe ctrl = true ∧ ctrlS ctrl = a.val ∧ ctrlNr ctrl = b.val ∧ ctrlPf ctrl = pf := by
    decide +kernel
  have h := htable ⟨s % 4, Nat.mod_lt _ (by decide)⟩ ⟨nr % 8, Nat.mod_lt _ (by decide)⟩ pf
  rw [sCtrl, and_three, and_seven]
  exact h

theorem sCtrl_ne_frmr (kind nr : Nat) (pf : Bool) : (sCtrl kind nr pf == uCtrl uFrmr false) = false := by
  rw [beq_eq_false_iff_ne]
  intro heq
  have hs := (sCtrl_fields kind nr pf).1
  rw [heq] at hs
  exact absurd hs (by decide)

/-- The fields of the control octet of an I-frame. -/
theorem iCtrl_fields (ns nr : Nat) (pf : Bool) :
    isIframe (iCtrl ns nr pf) = true ∧ ctrlNs (iCtrl ns nr pf) = ns % 8 ∧
      ctrlNr (iCtrl ns nr pf) = nr % 8 ∧ ctrlPf (iCtrl ns nr pf) = pf := by
  have htable : ∀ a b : Fin 8, ∀ pf : Bool,
      let ctrl : UInt8 := .ofNat (a.val <<< 1 ||| (if pf then 1 else 0) <<< 4 ||| b.val <<< 5)
      isIframe ctrl = true ∧ ctrlNs ctrl = a.val ∧ ctrlNr ctrl = b.val ∧ ctrlPf ctrl = pf := by
    decide +kernel
  have h := htable ⟨ns % 8, Nat.mod_lt _ (by decide)⟩ ⟨nr % 8, Nat.mod_lt _ (by decide)⟩ pf
  rw [iCtrl, and_seven, and_seven]
  exact h
@[ext]
structure LinkView where
  currentState : State
  myAddress : UInt8
  peerAddress : UInt8
  vr : Nat
  rejException : Bool
  remoteBusy : Bool
  localBusy : Bool
  t2Active : Bool
  line : List Obs
  told : List Obs
  got : List (List UInt8)
  frmrSent : Bool
  debt : Nat × Bool
  sessions : Nat

def linkView (s : Ctx) : LinkView where
  currentState := s.currentState
  myAddress := s.myAddress
  peerAddress := s.peerAddress
  vr := s.vr
  rejException := s.rejException
  remoteBusy := s.remoteBusy
  localBusy := s.localBusy
  t2Active := s.t2Active
  line := onLine s.trace
  told := upper s.trace
  got := received s.trace
  frmrSent := AtcHdlc.frmrSent s.trace
  debt := AtcHdlc.debt s.trace
  sessions := resetCount s.trace

namespace LinkView

/-- After one more frame on the line. -/
def say (v : LinkView) (crc : CrcOps) (f : Frame) : LinkView :=
  { v with
    line := v.line ++ f.obs crc ⟨v.currentState, v.remoteBusy, v.localBusy⟩
    frmrSent := v.frmrSent || f.ctrl == uCtrl uFrmr false
    debt := (v.debt.1, v.debt.2 && !carries f.ctrl v.debt.1) }

/-- After some more calls of `on_data` or `on_event`. -/
def tell (v : LinkView) (os : List Obs) : LinkView := { v with told := v.told ++ os }

def goto (v : LinkView) (state : State) : LinkView := { v with currentState := state }

/-- After `reset_state`. -/
def fresh (v : LinkView) : LinkView :=
  { v with
    vr := 0, rejException := false, remoteBusy := false, localBusy := false, t2Active := false, got := []
    frmrSent := false, debt := (0, false), sessions := v.sessions + 1 }

def stopT2 (v : LinkView) : LinkView := { v with t2Active := false }

end LinkView

section LinkView

variable {st : Station}

theorem linkView_logs (s : Ctx) {os : List Obs} (hline : onLine os = []) (htold : upper os = [])
    (hgot : ∀ o ∈ os, Plain o) : linkView (s.logs os) = linkView s := by
  simp only [linkView, Ctx.logs, onLine_append, upper_append, received_append _ hgot,
    frmrSent_append _ hgot, debt_append _ hgot,
    resetCount_append _ hgot, hline, htold, List.append_nil]

@[simp] theorem linkView_put (s : Ctx) (f : Frame) :
    linkView (s.put st f) = (linkView s).say st.crc f := by
  simp only [linkView, Ctx.put, onLine_append, upper_append, received_obs, frmrSent_obs, debt_obs,
    resetCount_obs, onLine_obs, upper_obs, List.append_nil]
  rfl

@[simp] theorem linkView_t1Start (s : Ctx) : linkView (t1Start st s) = linkView s := by
  have h := @linkView_logs s (if st.platform.t1Start then [.t1Start st.config.t1Ms] else [])
    (by split_ifs <;> rfl) (by split_ifs <;> rfl) (by split_ifs <;> simp [Plain])
  exact h

@[simp] theorem linkView_t1Stop (s : Ctx) : linkView (t1Stop st s) = linkView s := by
  have h := @linkView_logs s (if s.t1Active && st.platform.t1Stop then [.t1Stop] else [])
    (by split_ifs <;> rfl) (by split_ifs <;> rfl) (by split_ifs <;> simp [Plain])
  exact h

@[simp] theorem linkView_t2Start (s : Ctx) :
    linkView (t2Start st s) = { linkView s with t2Active := true } := by
  have h := @linkView_logs s (if st.platform.t2Start then [.t2Start st.config.t2Ms] else [])
    (by split_ifs <;> rfl) (by split_ifs <;> rfl) (by split_ifs <;> simp [Plain])
  rw [← h]
  rfl

@[simp] theorem linkView_t2Stop (s : Ctx) : linkView (t2Stop st s) = (linkView s).stopT2 := by
  have h := @linkView_logs s (if s.t2Active && st.platform.t2Stop then [.t2Stop] else [])
    (by split_ifs <;> rfl) (by split_ifs <;> rfl) (by split_ifs <;> simp [Plain])
  rw [← h]
  rfl

theorem received_reset (trace : List Obs) : received (trace ++ [.reset]) = [] := by
  rw [received, List.foldl_append]
  rfl

theorem frmrSent_reset (trace : List Obs) : frmrSent (trace ++ [.reset]) = false := by
  rw [frmrSent, List.foldl_append]
  rfl

theorem debt_reset (trace : List Obs) : debt (trace ++ [.reset]) = (0, false) := by
  rw [debt, List.foldl_append]
  rfl

theorem resetCount_reset (trace : List Obs) : resetCount (trace ++ [.reset]) = resetCount trace + 1 := by
  rw [resetCount, List.count_append]
  rfl

theorem debt_received (trace : List Obs) (payload : List UInt8) :
    debt (trace ++ [.received payload]) = (((debt trace).1 + 1) % mod8, true) := by
  rw [debt, List.foldl_append]
  rfl

theorem received_received (trace : List Obs) (payload : List UInt8) :
    received (trace ++ [.received payload]) = received trace ++ [payload] := by
  rw [received, List.foldl_append]
  rfl

@[simp] theorem linkView_resetState (s : Ctx) : linkView (resetState st s) = (linkView s).fresh := by
  have hclear : linkView (clearState st s) =
      { (linkView s).fresh with t2Active := s.t2Active } := by
    rw [clearState, clearSlotLens_eq]
    simp only [linkView, Ctx.log, onLine_append, upper_append, received_reset, frmrSent_reset,
      debt_reset, resetCount_reset]
    simp [onLine, upper, LinkView.fresh]
  have hstep : resetState st s = t2Stop st (t1Stop st (clearState st s)) := rfl
  rw [hstep, linkView_t2Stop, linkView_t1Stop, hclear]
  rfl

variable (hp : st.platform.Passive)
include hp

theorem linkView_onData (s : Ctx) (payload : List UInt8) :
    linkView (onData st s payload) = (linkView s).tell (dataObs st payload) := by
  have hgot : ∀ o ∈ dataObs st payload, Plain o := by
    unfold dataObs
    split_ifs <;> simp [Plain]
  have hline : onLine (dataObs st payload) = [] := by
    unfold dataObs
    split_ifs <;> rfl
  have htold : upper (dataObs st payload) = dataObs st payload := by
    unfold dataObs
    split_ifs <;> rfl
  rw [onData_passive hp]
  simp only [linkView, Ctx.logs, onLine_append, upper_append, received_append _ hgot,
    frmrSent_append _ hgot, debt_append _ hgot,
    resetCount_append _ hgot, hline, htold, List.append_nil]
  rfl

theorem linkView_onEvent (s : Ctx) (event : Event) :
    linkView (onEvent st s event) = (linkView s).tell (eventObs st event) := by
  have hgot : ∀ o ∈ eventObs st event, Plain o := by
    unfold eventObs
    split_ifs <;> simp [Plain]
  have hline : onLine (eventObs st event) = [] := by
    unfold eventObs
    split_ifs <;> rfl
  have htold : upper (eventObs st event) = eventObs st event := by
    unfold eventObs
    split_ifs <;> rfl
  rw [onEvent_passive hp]
  simp only [linkView, Ctx.logs, onLine_append, upper_append, received_append _ hgot,
    frmrSent_append _ hgot, debt_append _ hgot,
    resetCount_append _ hgot, hline, htold, List.append_nil]
  rfl

/-- A change of the link state, or a set-up that is heard again. -/
theorem linkView_setState (s : Ctx) (newState : State) (event : Event) :
    linkView (setState st s newState event) =
      if s.currentState ≠ newState ∨ event = .connReq then
        ((linkView s).goto newState).tell (eventObs st event)
      else linkView s := by
  simp only [setState]
  split_ifs
  · rw [linkView_onEvent hp]
    rfl
  · rfl

end LinkView

/-! ### What a frame does to the view -/

/-- The calls of `on_event` for an acknowledgement. -/
def opened (st : Station) (s : Ctx) (nr : Nat) : List Obs :=
  if nr = s.va then []
  else match st.txWindow with
    | some w => if u8 (((s.vs : Int) - s.va) % mod8) ≥ w.slotCount then eventObs st .windowOpen else []
    | none => []

/-- The FRMR that reports a control octet. -/
def frmrFrame (s : Ctx) (ctrl flags : UInt8) : Frame :=
  ⟨s.myAddress, uCtrl uFrmr false, frmrInfo { s with frmrCtrl := ctrl, frmrFlags := flags }⟩

namespace LinkView

variable (st : Station)

/-- The answer to a SABM that opens a session. -/
def accept (v : LinkView) (pf : Bool) : LinkView :=
  ((v.fresh.say st.crc ⟨v.myAddress, uCtrl uUa pf, []⟩).goto .connected).tell (eventObs st .connReq)

def sayUa (v : LinkView) (pf : Bool) : LinkView := v.say st.crc ⟨v.myAddress, uCtrl uUa pf, []⟩

def sayDm (v : LinkView) (pf : Bool) : LinkView := v.say st.crc ⟨v.myAddress, uCtrl uDm pf, []⟩

/-- A supervisory response, or a REJ command. -/
def sayS (v : LinkView) (address : UInt8) (kind : Nat) (pf : Bool) : LinkView :=
  v.say st.crc ⟨address, sCtrl kind v.vr pf, []⟩

/-- The end of a session or of an attempt. -/
def leave (v : LinkView) (state : State) (event : Event) : LinkView :=
  (v.goto state).tell (eventObs st event)

/-- An N(R) outside of the window. -/
def reject (v : LinkView) (frmr : Frame) : LinkView :=
  (v.stopT2.say st.crc frmr).leave st .frmrError .protocolError

/-- The acknowledgement of an I-frame in sequence, sent or scheduled. -/
def acknowledge (v : LinkView) (pf : Bool) : LinkView :=
  if pf then (v.sayS st v.myAddress (if v.localBusy then sRnr else sRr) true).stopT2
  else if v.t2Active then v
  else if v.localBusy then v.sayS st v.myAddress sRnr false
  else { v with t2Active := true }

/-- An I-frame in sequence. -/
def receive (v : LinkView) (pf : Bool) (payload : List UInt8) : LinkView :=
  (({ v with
      vr := (v.vr + 1) % mod8, rejException := false, got := v.got ++ [payload]
      debt := ((v.debt.1 + 1) % mod8, true) }).tell
    (dataObs st payload)).acknowledge st pf

/-- An I-frame out of sequence. -/
def refuse (v : LinkView) (pf : Bool) : LinkView :=
  if v.rejException then
    if pf then v.sayS st v.myAddress sRr true else v
  else
    ({ v with rejException := true }.sayS st v.peerAddress sRej pf).stopT2

/-- What a supervisory frame says about the peer's busy condition. -/
def busy (v : LinkView) (kind : Nat) : LinkView :=
  if kind = sRr then
    { v with remoteBusy := false }.tell (if v.remoteBusy then eventObs st .peerReady else [])
  else if kind = sRnr then
    { v with remoteBusy := true }.tell (if v.remoteBusy then [] else eventObs st .peerBusy)
  else if kind = sRej then { v with remoteBusy := false }
  else v

/-- The answer to a poll. -/
def poll (v : LinkView) (polled : Bool) : LinkView :=
  if polled then (v.sayS st v.myAddress sRr true).stopT2 else v

/-- The view after an unnumbered frame in CONNECTED. -/
def unnumbered (v : LinkView) (s : Ctx) (f : Received) : LinkView :=
  let pf := ctrlPf f.ctrl
  match uCmd f.ctrl with
  | .sabm => v.accept st pf
  | .disc => (v.fresh.sayUa st pf).leave st .disconnected .peerDisc
  | .dm => v.fresh.leave st .disconnected .peerReject
  | .frmr => v.fresh.leave st .frmrError .protocolError
  | .ui => v.tell (dataObs st (f.info.getD []))
  | .test =>
      if isCmd s f.address then v.say st.crc ⟨v.myAddress, uCtrl uTest pf, f.info.getD []⟩
      else match f.info with
        | some payload => v.tell (dataObs st payload)
        | none => v
  | .snrm | .sabme | .snrme | .sarme => v.sayDm st pf
  | .ua | .unknown => v.stopT2.say st.crc (frmrFrame s f.ctrl frmrW)

/-- The view after a frame that `s`, with the view `v`, dispatches. -/
def next (v : LinkView) (s : Ctx) (f : Received) : LinkView :=
  let pf := ctrlPf f.ctrl
  let nr := ctrlNr f.ctrl
  match s.currentState with
  | .disconnected =>
      if ¬isUframe f.ctrl then v
      else match uCmd f.ctrl with
        | .sabm => v.accept st pf
        | .disc => v.sayUa st pf
        | .ui => v.tell (dataObs st (f.info.getD []))
        | .snrm | .sabme | .snrme | .sarme => v.sayDm st pf
        | _ => v
  | .connecting =>
      if ¬isUframe f.ctrl then v
      else match uCmd f.ctrl with
        | .sabm => v.sayUa st pf
        | .ua => if pf then v.fresh.leave st .connected .connAccepted else v
        | .dm => if pf then v.leave st .disconnected .peerReject else v
        | .disc => v.sayDm st pf
        | _ => v
  | .connected =>
      if isUframe f.ctrl then v.unnumbered st s f
      else if isIframe f.ctrl then
        if ¬nrValid s nr then v.reject st (frmrFrame s f.ctrl frmrZ)
        else
          let v := v.tell (opened st s nr)
          if ctrlNs f.ctrl = s.vr then v.receive st pf (f.info.getD []) else v.refuse st pf
      else
        let v := (v.busy st (ctrlS f.ctrl)).poll st (isCmd s f.address && pf)
        if ¬nrValid s nr then v.reject st (frmrFrame s f.ctrl frmrZ) else v.tell (opened st s nr)
  | .disconnecting =>
      if ¬isUframe f.ctrl then
        if pf then v.sayDm st true else v
      else match uCmd f.ctrl with
        | .sabm | .sabme => v.sayDm st pf
        | .disc => v.sayUa st pf
        | .ua => if pf then v.leave st .disconnected .discDone else v
        | .dm => if pf then v.leave st .disconnected .peerReject else v
        | _ => v
  | .frmrError => if isUframe f.ctrl ∧ uCmd f.ctrl = .sabm then v.accept st pf else v

end LinkView

section Next

variable {st : Station}

theorem linkView_framesAcked (hp : st.platform.Passive) (s : Ctx) (nr : Nat) :
    linkView (framesAcked st s nr) = (linkView s).tell (opened st s nr) := by
  have hnil : (linkView s).tell [] = linkView s := by simp [LinkView.tell]
  have hmove : linkView { s.log (.acked nr) with va := nr, n2 := 0 } = linkView s :=
    @linkView_logs s [.acked nr] rfl rfl (by simp [Plain])
  unfold framesAcked opened
  split_ifs with heq
  · exact hnil.symm
  · cases st.txWindow with
    | none =>
        have hnull := @linkView_logs { s.log (.acked nr) with va := nr, n2 := 0 } [.nullWindow] rfl rfl
          (by simp [Plain])
        exact (hnull.trans hmove).trans hnil.symm
    | some w =>
        simp only
        split_ifs
        · rw [linkView_onEvent hp, hmove]
        · rw [hmove, hnil]

theorem linkView_processNr (hp : st.platform.Passive) (s : Ctx) (nr : Nat) :
    linkView (processNr st s nr) = (linkView s).tell (opened st s nr) := by
  unfold processNr
  split_ifs with hvs hva
  · rw [linkView_t1Stop, linkView_framesAcked hp]
  · rw [linkView_t1Start, linkView_framesAcked hp]
  · rw [opened, if_pos (not_not.mp hva).symm]
    simp [LinkView.tell]

theorem linkView_triggerRetransmit (s : Ctx) (fromSeq : Nat) :
    linkView (triggerRetransmit st s fromSeq) = linkView s := by
  unfold triggerRetransmit
  split_ifs <;> rfl

theorem linkView_sendS (s : Ctx) (address : UInt8) (kind nr : Nat) (pf : Bool) :
    linkView (sendS st s address kind nr pf) =
      (linkView s).say st.crc ⟨address, sCtrl kind nr pf, []⟩ := by
  rw [sendS_eq, linkView_put]

theorem linkView_sendFrmr (s : Ctx) (ctrl : UInt8) (w x y z : Bool) {flags : UInt8}
    (hflags : (if w then frmrW else 0) ||| (if x then frmrX else 0) ||| (if y then frmrY else 0)
      ||| (if z then frmrZ else 0) = flags) :
    linkView (sendFrmr st s ctrl w x y z) =
      (linkView s).stopT2.say st.crc (frmrFrame s ctrl flags) := by
  simp only [sendFrmr, hflags, retransmitFrmr_eq, linkView_t1Start, linkView_put, linkView_t2Stop]
  rfl

variable (hp : st.platform.Passive)
include hp

theorem linkView_rejectNr {s : Ctx} (hstate : s.currentState = .connected) (ctrl : UInt8) :
    linkView (rejectNr st s ctrl) = (linkView s).reject st (frmrFrame s ctrl frmrZ) := by
  have hsent := @linkView_sendFrmr st s ctrl false false false true frmrZ (by decide)
  have hconnected : (sendFrmr st s ctrl false false false true).currentState = .connected :=
    (congrArg LinkView.currentState hsent).trans hstate
  rw [rejectNr, linkView_setState hp, hconnected, if_pos (Or.inl (by decide)), hsent]
  rfl

theorem linkView_handleInSequenceIframe (s : Ctx) (pf : Bool) (info : Option (List UInt8)) :
    linkView (handleInSequenceIframe st s pf info) = (linkView s).receive st pf (info.getD []) := by
  have htaken : linkView { s.log (.received (info.getD [])) with
      vr := (s.vr + 1) % mod8, rejException := false } =
      { linkView s with
        vr := (s.vr + 1) % mod8, rejException := false, got := received s.trace ++ [info.getD []]
        debt := (((debt s.trace).1 + 1) % mod8, true) } := by
    have hsent : frmrSent (s.trace ++ [.received (info.getD [])]) = frmrSent s.trace := by
      rw [frmrSent, List.foldl_append]
      rfl
    have hresets : resetCount (s.trace ++ [.received (info.getD [])]) = resetCount s.trace := by
      rw [resetCount, List.count_append]
      rfl
    simp only [linkView, Ctx.log, onLine_append, upper_append, received_received, hsent,
      debt_received, hresets]
    simp [onLine, upper]
  have hdata := @linkView_onData st hp { s.log (.received (info.getD [])) with
      vr := (s.vr + 1) % mod8, rejException := false } (info.getD [])
  rw [htaken] at hdata
  unfold handleInSequenceIframe
  extract_lets logged taken given polled
  have hgiven : linkView given = ({ linkView s with
      vr := (s.vr + 1) % mod8, rejException := false, got := received s.trace ++ [info.getD []]
      debt := (((debt s.trace).1 + 1) % mod8, true) }).tell
      (dataObs st (info.getD [])) := hdata
  have hpolled : linkView (t2Stop st polled) = ((linkView given).sayS st given.myAddress
      (if given.localBusy then sRnr else sRr) true).stopT2 := by
    unfold polled
    rw [linkView_t2Stop]
    split_ifs
    · exact congrArg LinkView.stopT2 (linkView_sendS given given.myAddress sRnr given.vr true)
    · exact congrArg LinkView.stopT2 (linkView_sendS given given.myAddress sRr given.vr true)
  have hreceive : (linkView s).receive st pf (info.getD []) = (linkView given).acknowledge st pf :=
    congrArg (LinkView.acknowledge st · pf) hgiven.symm
  rw [hreceive, LinkView.acknowledge]
  cases pf with
  | true => exact hpolled
  | false =>
      have ht2 : (linkView given).t2Active = given.t2Active := rfl
      have hbusy : (linkView given).localBusy = given.localBusy := rfl
      rw [ht2, hbusy]
      cases given.t2Active with
      | true => rfl
      | false =>
          simp only [Bool.false_eq_true, not_false_eq_true, if_true, if_false]
          split_ifs
          · exact linkView_sendS given given.myAddress sRnr given.vr false
          · exact linkView_t2Start given

omit hp in
theorem linkView_handleOutOfSequenceIframe (s : Ctx) (pf : Bool) :
    linkView (handleOutOfSequenceIframe st s pf) = (linkView s).refuse st pf := by
  simp only [handleOutOfSequenceIframe, sendRrResp, sendRej, sendS_eq, LinkView.refuse]
  have hexception : (linkView s).rejException = s.rejException := rfl
  rw [hexception]
  split_ifs
  · rw [linkView_put]
    rfl
  · rfl
  · rw [linkView_t2Stop, linkView_put]
    rfl

theorem linkView_updateRemoteBusy (s : Ctx) (kind : Nat) :
    linkView (updateRemoteBusy st s kind) = (linkView s).busy st kind := by
  have hbusy : (linkView s).remoteBusy = s.remoteBusy := rfl
  have hnil (v : LinkView) : v.tell [] = v := by simp [LinkView.tell]
  simp only [updateRemoteBusy, LinkView.busy, hbusy]
  by_cases hrr : kind = sRr
  · simp only [if_pos hrr]
    split_ifs
    · rw [linkView_onEvent hp]
      rfl
    · rw [hnil]
      rfl
  · simp only [if_neg hrr]
    by_cases hrnr : kind = sRnr
    · simp only [if_pos hrnr]
      cases hremote : s.remoteBusy with
      | true =>
          simp only [not_true_eq_false, if_false, if_true, hnil, linkView, hremote]
      | false =>
          simp only [Bool.false_eq_true, not_false_eq_true, if_true, if_false]
          rw [linkView_onEvent hp]
          rfl
    · simp only [if_neg hrnr]
      split_ifs <;> rfl

theorem linkView_handleIframe {s : Ctx} (hstate : s.currentState = .connected) (ctrl : UInt8)
    (info : Option (List UInt8)) :
    linkView (handleIframe st s ctrl info) =
      if ¬nrValid s (ctrlNr ctrl) then (linkView s).reject st (frmrFrame s ctrl frmrZ)
      else if ctrlNs ctrl = s.vr then
        ((linkView s).tell (opened st s (ctrlNr ctrl))).receive st (ctrlPf ctrl) (info.getD [])
      else ((linkView s).tell (opened st s (ctrlNr ctrl))).refuse st (ctrlPf ctrl) := by
  have hacked := linkView_processNr hp s (ctrlNr ctrl)
  have hvr : (processNr st s (ctrlNr ctrl)).vr = s.vr := congrArg LinkView.vr hacked
  simp only [handleIframe, hvr]
  by_cases hvalid : nrValid s (ctrlNr ctrl)
  · rw [if_neg (not_not.mpr hvalid), if_neg (not_not.mpr hvalid)]
    split_ifs
    · rw [linkView_handleInSequenceIframe hp, hacked]
    · rw [linkView_handleOutOfSequenceIframe, hacked]
  · rw [if_pos hvalid, if_pos hvalid, linkView_rejectNr hp hstate]

omit hp in
theorem opened_congr {s t : Ctx} (h : ackView t = ackView s) (nr : Nat) :
    opened st t nr = opened st s nr := by
  have hva : t.va = s.va := congrArg AckView.va h
  have hvs : t.vs = s.vs := congrArg AckView.vs h
  rw [opened, opened, hva, hvs]

theorem linkView_handleSframe {s : Ctx} (hstate : s.currentState = .connected) (address ctrl : UInt8) :
    linkView (handleSframe st s address ctrl) =
      let v := ((linkView s).busy st (ctrlS ctrl)).poll st (isCmd s address && ctrlPf ctrl)
      if ¬nrValid s (ctrlNr ctrl) then v.reject st (frmrFrame s ctrl frmrZ)
      else v.tell (opened st s (ctrlNr ctrl)) := by
  unfold handleSframe
  extract_lets kind nr pf cmd busy polled stopped acked v
  have hbusy : linkView busy = (linkView s).busy st kind := linkView_updateRemoteBusy hp s kind
  have hview : ackView polled = ackView s := by
    have hbusy : ackView busy = ackView s := ackView_updateRemoteBusy hp s kind
    unfold polled
    simp only [sendRrResp, sendS_eq]
    split_ifs
    · exact hbusy
    · exact hbusy
  have hpolled : linkView polled = v := by
    unfold polled v LinkView.poll
    rw [← hbusy]
    by_cases hpoll : cmd ∧ pf
    · have hpoll' : (isCmd s address && ctrlPf ctrl) = true := by simpa [cmd, pf] using hpoll
      rw [if_pos hpoll, if_pos hpoll', linkView_t2Stop, sendRrResp, linkView_sendS]
      rfl
    · have hpoll' : (isCmd s address && ctrlPf ctrl) = false := by simpa [cmd, pf] using hpoll
      rw [if_neg hpoll, hpoll']
      rfl
  have hkept {β} (field : LinkView → β) (hstay : ∀ w : LinkView, field ((w.busy st kind).poll st
      (isCmd s address && ctrlPf ctrl)) = field w) : field (linkView polled) = field (linkView s) := by
    rw [hpolled]
    exact hstay (linkView s)
  have hstate' : polled.currentState = .connected := by
    refine (hkept LinkView.currentState fun w => ?_).trans hstate
    unfold LinkView.poll LinkView.busy
    split_ifs <;> rfl
  have hmy : polled.myAddress = s.myAddress := by
    refine hkept LinkView.myAddress fun w => ?_
    unfold LinkView.poll LinkView.busy
    split_ifs <;> rfl
  have hvr : polled.vr = s.vr := by
    refine hkept LinkView.vr fun w => ?_
    unfold LinkView.poll LinkView.busy
    split_ifs <;> rfl
  have hvs : polled.vs = s.vs := congrArg AckView.vs hview
  have hfrmr : frmrFrame polled ctrl frmrZ = frmrFrame s ctrl frmrZ := by
    simp only [frmrFrame, frmrInfo, hmy, hvr, hvs]
  have hacked : linkView acked = v.tell (opened st s nr) := by
    unfold acked stopped
    split_ifs
    · rw [linkView_triggerRetransmit, linkView_t1Stop, linkView_framesAcked hp, hpolled,
        opened_congr hview]
    · rw [linkView_t1Stop, linkView_framesAcked hp, hpolled, opened_congr hview]
    · rw [linkView_processNr hp, hpolled, opened_congr hview]
  rw [nrValid_congr hview]
  by_cases hvalid : nrValid s nr
  · rw [if_neg (not_not.mpr hvalid), if_neg (not_not.mpr hvalid)]
    split_ifs
    · exact (linkView_triggerRetransmit acked acked.va).trans hacked
    · exact hacked
    · exact hacked
  · rw [if_pos hvalid, if_pos hvalid, linkView_rejectNr hp hstate', hpolled, hfrmr]

theorem linkView_answerSabm (s : Ctx) (pf : Bool) :
    linkView (setState st (sendUa st (resetState st s) pf) .connected .connReq) =
      (linkView s).accept st pf := by
  rw [linkView_setState hp, if_pos (Or.inr rfl), sendUa, sendU_eq, linkView_put, linkView_resetState]
  have hmy : (resetState st s).myAddress = s.myAddress :=
    congrArg LinkView.myAddress (linkView_resetState s)
  rw [hmy]
  rfl

/-- The end of a session or of an attempt. -/
theorem linkView_leave {s : Ctx} {state : State} (hne : s.currentState ≠ state) (event : Event) :
    linkView (setState st s state event) = (linkView s).leave st state event := by
  rw [linkView_setState hp, if_pos (Or.inl hne)]
  rfl

omit hp in
theorem linkView_sendUa (s : Ctx) (pf : Bool) : linkView (sendUa st s pf) = (linkView s).sayUa st pf := by
  rw [sendUa, sendU_eq, linkView_put]
  rfl

omit hp in
theorem linkView_sendDm (s : Ctx) (pf : Bool) : linkView (sendDm st s pf) = (linkView s).sayDm st pf := by
  rw [sendDm, sendU_eq, linkView_put]
  rfl

omit hp in
@[simp] theorem resetState_currentState (s : Ctx) : (resetState st s).currentState = s.currentState :=
  congrArg LinkView.currentState (linkView_resetState s)

theorem linkView_handleUframe {s : Ctx} (hstate : s.currentState = .connected) (f : Received) :
    linkView (handleUframe st s f.address f.ctrl f.info) = (linkView s).unnumbered st s f := by
  unfold handleUframe LinkView.unnumbered
  cases uCmd f.ctrl with
  | sabm => exact linkView_answerSabm hp s _
  | disc =>
      have hne : (sendUa st (resetState st s) (ctrlPf f.ctrl)).currentState ≠ .disconnected := by
        simp [sendUa, Ctx.put, hstate]
      simp only [linkView_leave hp hne, linkView_sendUa, linkView_resetState]
  | dm =>
      have hne : (resetState st s).currentState ≠ .disconnected := by simp [hstate]
      simp only [linkView_leave hp hne, linkView_resetState]
  | frmr =>
      have hne : (resetState st s).currentState ≠ .frmrError := by simp [hstate]
      simp only [linkView_leave hp hne, linkView_resetState]
  | ui => exact linkView_onData hp s _
  | test =>
      simp only [frameSend_octets]
      split_ifs
      · exact linkView_put s _
      · cases f.info with
        | some payload => exact linkView_onData hp s payload
        | none => rfl
  | snrm | sabme | snrme | sarme => exact linkView_sendDm s _
  | ua | unknown => exact linkView_sendFrmr s f.ctrl true false false false (by decide)

omit hp in
/-- A control octet is that of an I-frame, of a supervisory frame or of an unnumbered one. -/
theorem ctrl_cases (ctrl : UInt8) :
    isIframe ctrl = true ∧ isSframe ctrl = false ∧ isUframe ctrl = false ∨
      isIframe ctrl = false ∧ isSframe ctrl = true ∧ isUframe ctrl = false ∨
      isIframe ctrl = false ∧ isSframe ctrl = false ∧ isUframe ctrl = true := by
  simp only [← Bool.not_eq_true, isIframe_iff, isSframe_iff, isUframe_iff]
  omega

theorem linkView_stateConnected {s : Ctx} (hstate : s.currentState = .connected) (f : Received) :
    linkView (stateConnected st s f.address f.ctrl f.info) = (linkView s).next st s f := by
  simp only [LinkView.next, hstate, stateConnected]
  rcases ctrl_cases f.ctrl with ⟨hi, hs, hu⟩ | ⟨hi, hs, hu⟩ | ⟨hi, hs, hu⟩
  · simp only [hi, hu, if_true, Bool.false_eq_true, if_false]
    exact linkView_handleIframe hp hstate f.ctrl f.info
  · simp only [hi, hs, hu, if_true, Bool.false_eq_true, if_false]
    exact linkView_handleSframe hp hstate f.address f.ctrl
  · simp only [hi, hs, hu, if_true, Bool.false_eq_true, if_false]
    exact linkView_handleUframe hp hstate f

theorem linkView_stateDisconnected {s : Ctx} (hstate : s.currentState = .disconnected) (f : Received) :
    linkView (stateDisconnected st s f.ctrl f.info) = (linkView s).next st s f := by
  simp only [LinkView.next, hstate, stateDisconnected]
  split_ifs
  · cases uCmd f.ctrl with
    | sabm => exact linkView_answerSabm hp s _
    | disc => exact linkView_sendUa s _
    | ui => exact linkView_onData hp s _
    | snrm | sabme | snrme | sarme => exact linkView_sendDm s _
    | ua | dm | frmr | test | unknown => rfl
  · rfl

/-- The answer with the final bit that ends a set-up or a release. -/
theorem linkView_settled {s : Ctx} {state : State} (hne : s.currentState ≠ state) (pf : Bool)
    (event : Event) :
    linkView (if pf then setState st (t1Stop st s) state event else s) =
      if pf then (linkView s).leave st state event else linkView s := by
  split_ifs
  · rw [linkView_leave hp (s := t1Stop st s) hne, linkView_t1Stop]
  · rfl

theorem linkView_stateConnecting {s : Ctx} (hstate : s.currentState = .connecting) (f : Received) :
    linkView (stateConnecting st s f.ctrl) = (linkView s).next st s f := by
  simp only [LinkView.next, hstate, stateConnecting]
  by_cases hu : ¬isUframe f.ctrl
  · rw [if_pos hu, if_pos hu]
  · rw [if_neg hu, if_neg hu]
    cases uCmd f.ctrl with
    | sabm => exact linkView_sendUa s _
    | ua =>
        have hne : (resetState st (t1Stop st s)).currentState ≠ .connected := by
          rw [resetState_currentState]
          exact fun h => absurd (hstate.symm.trans h) (by decide)
        simp only
        split_ifs
        · rw [linkView_leave hp hne, linkView_resetState, linkView_t1Stop]
        · rfl
    | dm => exact linkView_settled hp (by rw [hstate]; decide) _ _
    | disc => exact linkView_sendDm s _
    | frmr | ui | test | snrm | sabme | snrme | sarme | unknown => rfl

theorem linkView_stateDisconnecting {s : Ctx} (hstate : s.currentState = .disconnecting)
    (f : Received) : linkView (stateDisconnecting st s f.ctrl) = (linkView s).next st s f := by
  simp only [LinkView.next, hstate, stateDisconnecting]
  by_cases hu : ¬isUframe f.ctrl
  · rw [if_pos hu, if_pos hu]
    split_ifs
    · exact linkView_sendDm s true
    · rfl
  · rw [if_neg hu, if_neg hu]
    cases uCmd f.ctrl with
    | sabm | sabme => exact linkView_sendDm s _
    | disc => exact linkView_sendUa s _
    | ua => exact linkView_settled hp (by rw [hstate]; decide) _ _
    | dm => exact linkView_settled hp (by rw [hstate]; decide) _ _
    | frmr | ui | test | snrm | snrme | sarme | unknown => rfl

theorem linkView_stateFrmrError {s : Ctx} (hstate : s.currentState = .frmrError) (f : Received) :
    linkView (stateFrmrError st s f.ctrl) = (linkView s).next st s f := by
  simp only [LinkView.next, hstate, stateFrmrError]
  by_cases hu : isUframe f.ctrl
  · by_cases hcmd : uCmd f.ctrl = .sabm
    · rw [if_neg (not_not.mpr hu), if_pos hcmd, if_pos ⟨hu, hcmd⟩]
      exact linkView_answerSabm hp s _
    · rw [if_neg (not_not.mpr hu), if_neg hcmd, if_neg fun h => hcmd h.2]
  · rw [if_pos hu, if_neg fun h => hu h.1]

/-- What a frame makes of the link state, of V(R) and the flags of the receive side, and what it shows of
itself below and above. -/
theorem dispatchFrame_linkView (s : Ctx) (f : Received) :
    linkView (f.dispatch st s) = (linkView s).next st s f := by
  generalize hlogged : s.log (.dispatch f.address f.ctrl f.info) = t
  have hview : linkView t = linkView s := by
    rw [← hlogged]
    exact @linkView_logs s [.dispatch f.address f.ctrl f.info] rfl rfl (by simp [Plain])
  have hnext : (linkView s).next st s f = (linkView t).next st t f := by
    rw [hview, ← hlogged]
    rfl
  have hstep : f.dispatch st s = match t.currentState with
      | .disconnected => stateDisconnected st t f.ctrl f.info
      | .connecting => stateConnecting st t f.ctrl
      | .connected => stateConnected st t f.address f.ctrl f.info
      | .disconnecting => stateDisconnecting st t f.ctrl
      | .frmrError => stateFrmrError st t f.ctrl := by
    rw [← hlogged]
    rfl
  rw [hnext, hstep]
  cases hstate : t.currentState with
  | disconnected => exact linkView_stateDisconnected hp hstate f
  | connecting => exact linkView_stateConnecting hp hstate f
  | connected => exact linkView_stateConnected hp hstate f
  | disconnecting => exact linkView_stateDisconnecting hp hstate f
  | frmrError => exact linkView_stateFrmrError hp hstate f

end Next

end AtcHdlc
