import AtcHdlc.Window

/-! What the calls other than `atc_hdlc_data_in` can do, said once. Every call is a sequence of elementary
deeds, each with the call that does it and the guard under which it is done; a property of contexts that
every deed keeps is kept by every such call. -/

namespace AtcHdlc

/-- What the streaming of a UI frame, the two flags of an abort and a read of absent data leave in the
trace. -/
def Loose : Obs → Prop
  | .send _ _ | .nullRead => True
  | .frame _ ctrl _ => ctrl = uCtrl uUi false
  | _ => False

/-- T1 has expired too often: the test of `atc_hdlc_t1_expired` behind the increment. -/
def Exhausted (st : Station) (s : Ctx) : Prop := st.config.maxRetries > 0 ∧ s.n2 > st.config.maxRetries

/-- When a call changes the link state. -/
def Call.Moves (st : Station) (s : Ctx) : Call → Prop
  | t1Expired => Exhausted st s
  | linkSetup _ => s.currentState = .disconnected
  | disconnect => s.currentState = .connected ∨ s.currentState = .frmrError
  | linkReset | abort => True
  | _ => False

/-- The calls that run `reset_state`. -/
def Call.Resets : Call → Prop
  | t1Expired | linkReset | abort => True
  | _ => False

/-- The calls that put out octets which are no whole frame. -/
def Call.Streams : Call → Prop
  | transmitUiStart _ | transmitUiData _ | transmitUiEnd | abort => True
  | _ => False

/-- One elementary deed of a call. -/
inductive Deed (st : Station) (call : Call) : Ctx → Ctx → Prop where
  | put (s : Ctx) (f : Frame) : Deed st call s (s.put st f)
  | loose (s : Ctx) (crc : UInt16) (os : List Obs) (hos : ∀ o ∈ os, Loose o) (h : call.Streams) :
      Deed st call s { s.logs os with txCrc := crc }
  | t1Start (s : Ctx) : Deed st call s (t1Start st s)
  | t2Stop (s : Ctx) : Deed st call s (t2Stop st s)
  | t1Done (s : Ctx) (h : call = .t1Expired) : Deed st call s { s with t1Active := false }
  | t2Done (s : Ctx) (h : call = .t2Expired) : Deed st call s { s with t2Active := false }
  | retry (s : Ctx) (h : call = .t1Expired) : Deed st call s { s with n2 := (s.n2 + 1) % 256 }
  | event (s : Ctx) (event : Event) : Deed st call s (onEvent st s event)
  | link (s : Ctx) (state : State) (h : call.Moves st s) : Deed st call s { s with currentState := state }
  | reset (s : Ctx) (h : call.Resets) : Deed st call s (resetState st s)
  | hunt (s : Ctx) (h : call = .abort) : Deed st call s { s with rxState := .hunt }
  | peer (s : Ctx) (peerAddr : UInt8) (h : call = .linkSetup peerAddr)
      (hstate : s.currentState = .disconnected) : Deed st call s { s with peerAddress := peerAddr }
  | localBusy (s : Ctx) (busy : Bool) (h : call = .setLocalBusy busy) (hstate : s.currentState = .connected) :
      Deed st call s { s with localBusy := busy }
  | accept (s : Ctx) (w : TxWindow) (data : Payload) (h : call = .transmitI data)
      (hstate : s.currentState = .connected) : Deed st call s ((filled w s data).log (.accept data.read))
  | cursor (s : Ctx) (next : Nat) (h : ∃ data, call = .transmitI data)
      (hstate : s.currentState = .connected) : Deed st call s { s with txNextSlot := next }
  | advance (s : Ctx) (vs : Nat) (h : ∃ data, call = .transmitI data)
      (hstate : s.currentState = .connected) : Deed st call s { s with vs := vs }

/-- A sequence of elementary deeds. -/
abbrev Deeds (st : Station) (call : Call) : Ctx → Ctx → Prop := Relation.ReflTransGen (Deed st call)

/-- What every deed keeps, every sequence of deeds keeps. -/
theorem Deeds.induct {st : Station} {call : Call} {P : Ctx → Prop}
    (hstep : ∀ s s', Deed st call s s' → P s → P s') {s s' : Ctx} (h : Deeds st call s s') (hs : P s) :
    P s' := by
  induction h with
  | refl => exact hs
  | tail _ hd ih => exact hstep _ _ hd ih

section Calls

variable (st : Station) {call : Call}

theorem setState_deeds {s : Ctx} (h : call.Moves st s) (newState : State) (event : Event) :
    Deeds st call s (setState st s newState event) := by
  simp only [setState]
  split_ifs
  · exact (Relation.ReflTransGen.single (.link s newState h)).tail (.event _ event)
  · exact .refl

theorem t1Expired_deeds (s : Ctx) : Deeds st .t1Expired s (t1Expired st s) := by
  have htimer : Deeds st .t1Expired s { s with t1Active := false, n2 := (s.n2 + 1) % 256 } :=
    (Relation.ReflTransGen.single (.t1Done s rfl)).tail (.retry _ rfl)
  have hagain (f : Frame) : Deeds st .t1Expired s
      (t1Start st (Ctx.put { s with t1Active := false, n2 := (s.n2 + 1) % 256 } st f)) :=
    (htimer.tail (.put _ f)).tail (.t1Start _)
  simp only [t1Expired, sendRr, sendRnr, sendU_eq, sendS_eq, retransmitFrmr_eq]
  by_cases hlost : st.config.maxRetries > 0 ∧ (s.n2 + 1) % 256 > st.config.maxRetries
  · rw [if_pos hlost]
    refine (htimer.trans (setState_deeds st ?_ _ _)).tail (.reset _ trivial)
    exact hlost
  · rw [if_neg hlost]
    split
    · exact hagain _
    · exact hagain _
    · split_ifs
      · exact hagain _
      · exact hagain _
      · exact htimer
    · exact hagain _
    · exact htimer

theorem linkSetup_deeds (s : Ctx) (peerAddr : UInt8) :
    Deeds st (.linkSetup peerAddr) s (linkSetup st s peerAddr).2 := by
  simp only [linkSetup, sendU_eq]
  split_ifs with hstate
  · exact .refl
  · have hdown : s.currentState = .disconnected := not_not.mp hstate
    refine (((Relation.ReflTransGen.single (.peer s peerAddr rfl hdown)).tail (.put _ _)).tail
      (.t1Start _)).trans (setState_deeds st ?_ _ _)
    exact hdown

theorem disconnect_deeds (s : Ctx) : Deeds st .disconnect s (disconnect st s).2 := by
  simp only [disconnect, sendU_eq]
  split_ifs with hstate
  · exact .refl
  · have hup : s.currentState = .connected ∨ s.currentState = .frmrError := by
      by_contra h
      exact hstate (not_or.mp h)
    refine ((Relation.ReflTransGen.single (.put s _)).tail (.t1Start _)).trans (setState_deeds st ?_ _ _)
    exact hup

theorem linkReset_deeds (s : Ctx) : Deeds st .linkReset s (linkReset st s).2 := by
  simp only [linkReset, sendU_eq]
  refine (((Relation.ReflTransGen.single (.reset s trivial)).tail (.put _ _)).tail (.t1Start _)).trans
    (setState_deeds st ?_ _ _)
  exact trivial

theorem abort_deeds (s : Ctx) : Deeds st .abort s (abort st s) := by
  have hflags : Deeds st .abort s ((s.log (.send flag false)).log (.send flag true)) := by
    have hloose : ∀ o ∈ [Obs.send flag false, Obs.send flag true], Loose o := by
      intro o ho
      rcases List.mem_cons.mp ho with rfl | ho
      · trivial
      · rw [List.mem_singleton.mp ho]
        trivial
    have hsends := @Deed.loose st .abort s s.txCrc [.send flag false, .send flag true] hloose trivial
    have heq : { s.logs [.send flag false, .send flag true] with txCrc := s.txCrc } =
        (s.log (.send flag false)).log (.send flag true) := by
      simp only [Ctx.logs, Ctx.log, List.append_assoc, List.cons_append, List.nil_append]
    rw [heq] at hsends
    exact .single hsends
  exact ((hflags.tail (.reset _ trivial)).tail (.hunt _ rfl)).tail (.link _ .disconnected trivial)

theorem setLocalBusy_deeds (s : Ctx) (busy : Bool) :
    Deeds st (.setLocalBusy busy) s (setLocalBusy st s busy).2 := by
  simp only [setLocalBusy, sendRr, sendS_eq]
  split_ifs with hstate hset hclear
  · exact .refl
  · obtain ⟨rfl, -⟩ := hset
    exact .single (.localBusy s true rfl (not_not.mp hstate))
  · obtain rfl : busy = false := by simpa using hclear.1
    exact (Relation.ReflTransGen.single (.localBusy s false rfl (not_not.mp hstate))).tail (.put _ _)
  · exact .refl

variable {st} in
theorem transmitI_ok {s : Ctx} {data : Payload} (hok : (transmitI st s data).1 = .ok) :
    data.len ≤ st.config.maxInfoSize ∧
      ∃ w, (st.txWindow = some w ∧ outstanding s < w.slotCount) ∧
        (transmitI st s data).2 = acceptI st w s data := by
  unfold transmitI at hok ⊢
  cases hw : st.txWindow with
  | none =>
      simp only [hw] at hok
      split_ifs at hok
  | some w =>
      simp only [hw] at hok ⊢
      split_ifs at hok ⊢ with hstate hbusy hlen hslot hfull
      exact ⟨Nat.le_of_not_lt hlen, w, ⟨rfl, Nat.lt_of_not_le hfull⟩, rfl⟩

variable {st} in
theorem transmitI_of_not_ok {s : Ctx} {data : Payload} (hrefused : (transmitI st s data).1 ≠ .ok) :
    (transmitI st s data).2 = s := by
  unfold transmitI at hrefused ⊢
  cases hw : st.txWindow with
  | none => split_ifs <;> rfl
  | some w =>
      simp only [hw] at hrefused ⊢
      split_ifs at hrefused ⊢
      all_goals first | rfl | exact absurd rfl hrefused

theorem transmitI_deeds (s : Ctx) {data : Payload} (hdata : data.NonNull) :
    Deeds st (.transmitI data) s (transmitI st s data).2 := by
  rcases @transmitI_cases st s data with hsame | ⟨w, -, hstate, -, -, -, haccepted⟩
  · rw [hsame]
  · rw [haccepted, acceptI_eq s hdata]
    extract_lets next filled' stored sent stopped
    have haccept : Deed st (.transmitI data) s filled' := .accept s w data rfl hstate
    have hcursor : Deed st (.transmitI data) filled' stored := .cursor _ _ ⟨data, rfl⟩ hstate
    have hput : Deed st (.transmitI data) stored sent := .put _ _
    have hadvance : Deed st (.transmitI data) sent { sent with vs := (s.vs + 1) % mod8 } :=
      .advance _ _ ⟨data, rfl⟩ hstate
    have hstopped : Deeds st (.transmitI data) s stopped :=
      ((((Relation.ReflTransGen.single haccept).tail hcursor).tail hput).tail hadvance).tail (.t2Stop _)
    split_ifs
    · exact hstopped.tail (.t1Start _)
    · exact hstopped

theorem loose_sends (octets : List UInt8) : ∀ o ∈ octets.map (Obs.send · false), Loose o := by
  intro o ho
  obtain ⟨octet, -, rfl⟩ := List.mem_map.mp ho
  trivial

/-- Every call but `atc_hdlc_data_in` is a sequence of elementary deeds. -/
theorem Call.deeds (s : Ctx) {call : Call} (hlegal : call.Legal) (hcall : ∀ bytes, call ≠ .dataIn bytes) :
    Deeds st call s (call.run st s) := by
  cases call with
  | dataIn bytes => exact absurd rfl (hcall bytes)
  | t1Expired => exact t1Expired_deeds st s
  | t2Expired =>
      simp only [run, AtcHdlc.t2Expired, sendRr, sendRnr, sendS_eq]
      split_ifs
      · exact (Relation.ReflTransGen.single (.t2Done s rfl)).tail (.put _ _)
      · exact (Relation.ReflTransGen.single (.t2Done s rfl)).tail (.put _ _)
  | linkSetup peerAddr => exact linkSetup_deeds st s peerAddr
  | disconnect => exact disconnect_deeds st s
  | linkReset => exact linkReset_deeds st s
  | abort => exact abort_deeds st s
  | setLocalBusy busy => exact setLocalBusy_deeds st s busy
  | transmitUi address data | transmitTest address data =>
      simp only [run, AtcHdlc.transmitUi, AtcHdlc.transmitTest]
      rcases transmitU_cases st s _ address data with hsame | hput
      · rw [hsame]
      · rw [hput]
        exact .single (.put s _)
  | transmitI data => exact transmitI_deeds st s hlegal
  | transmitUiStart address =>
      simp only [run, AtcHdlc.transmitUiStart, frameBegin_eq]
      refine .single (.loose s _ _ (fun o ho => ?_) trivial)
      rcases List.mem_cons.mp ho with rfl | ho
      · exact (rfl : uCtrl uUi false = _)
      · exact loose_sends _ o ho
  | transmitUiData data =>
      simp only [run, AtcHdlc.transmitUiData, emitAll_eq]
      split_ifs
      · exact .refl
      · exact .single (.loose s _ _ (loose_sends _) trivial)
  | transmitUiEnd =>
      simp only [run, AtcHdlc.transmitUiEnd, frameEnd_eq]
      refine .single (.loose s s.txCrc _ (fun o ho => ?_) trivial)
      rcases List.mem_append.mp ho with ho | ho
      · exact loose_sends _ o ho
      · rw [List.mem_singleton.mp ho]
        trivial

end Calls

end AtcHdlc
