import AtcHdlc.Calls
import AtcHdlc.Chunking
import AtcHdlc.Simulation

/-! Retransmission to the octet. A REJ or a final response that leaves frames open makes the call repeat
all of them, from V(A) on, with the payloads that were accepted, as long as no payload was written over
the slot of a frame that is still open. -/

namespace AtcHdlc

/-- The octets that the payload would be written to belong to no slot of an open frame. -/
def Clear (w : TxWindow) (s : Ctx) (data : Payload) : Prop :=
  ∀ k < (session s.trace).sent.length, (session s.trace).acked ≤ k →
    ∀ i < s.slotLens (k % w.slotCount), ∀ j < data.len,
      slotOffset w (k % w.slotCount) + i ≠ slotOffset w s.txNextSlot + j

instance (w : TxWindow) (s : Ctx) (data : Payload) : Decidable (Clear w s data) :=
  inferInstanceAs (Decidable (∀ k < _, _ → ∀ i < _, ∀ j < _, _))

/-- A payload that `atc_hdlc_transmit_i` accepts spares the open frames. -/
def Spares (st : Station) (s : Ctx) : Call → Prop
  | .transmitI data => (transmitI st s data).1 = .ok → ∀ w ∈ st.txWindow, Clear w s data
  | _ => True

instance (st : Station) (s : Ctx) (call : Call) : Decidable (Spares st s call) :=
  match call with
  | .transmitI _ => inferInstanceAs (Decidable (_ → ∀ w ∈ st.txWindow, _))
  | .t1Expired | .t2Expired | .linkSetup _ | .disconnect | .linkReset | .abort | .setLocalBusy _
  | .dataIn _ | .transmitUi _ _ | .transmitTest _ _ | .transmitUiStart _ | .transmitUiData _
  | .transmitUiEnd => .isTrue trivial

section Slots

variable {st : Station} {w : TxWindow}

theorem Kept.of_session {s s' : Ctx} (h : Kept w s) (hslots : s'.slots = s.slots)
    (hlens : s'.slotLens = s.slotLens) (hsent : (session s'.trace).sent = (session s.trace).sent)
    (hacked : (session s.trace).acked ≤ (session s'.trace).acked) : Kept w s' := by
  intro k hk hlive
  rw [readSlot_congr hslots hlens]
  simp only [hsent] at hk ⊢
  exact h k hk (Nat.le_trans hacked hlive)

theorem Kept.quiet {s s' : Ctx} (h : Kept w s) (hq : Quiet s s') : Kept w s' := by
  obtain ⟨os, hos, htrace⟩ := hq.trace
  have hsession : session s'.trace = session s.trace := by rw [htrace, session_neutral _ hos]
  exact h.of_session hq.slots hq.slotLens (by rw [hsession]) (by rw [hsession])

theorem Kept.resetState (s : Ctx) : Kept w (resetState st s) := by
  have hsession : session (AtcHdlc.resetState st s).trace = .start := by
    obtain ⟨os, hos, htrace⟩ := (@resetState_quiet st s).trace
    rw [htrace, session_neutral _ hos, clearState, clearSlotLens_eq]
    exact session_reset s.trace
  intro k hk
  simp only [hsession] at hk
  exact absurd hk (Nat.not_lt_zero k)

theorem Kept.effect (hp : st.platform.Passive) {ctrl : UInt8} {s s' : Ctx} (he : Effect st ctrl s s')
    (h : Kept w s) : Kept w s' := by
  cases he with
  | put f => exact h.quiet (.put st s f)
  | t1Start => exact h.quiet (.t1Start st s)
  | t1Stop => exact h.quiet (.t1Stop st s)
  | t2Start => exact h.quiet (.t2Start st s)
  | t2Stop => exact h.quiet (.t2Stop st s)
  | data payload => exact h.quiet (.onData hp s payload)
  | event event => exact h.quiet (.onEvent hp s event)
  | nullWindow => exact h.quiet (@Quiet.logs s [.nullWindow] (by simp [Neutral]))
  | receive payload =>
      exact (h.quiet (@Quiet.logs s [.received payload] (by simp [Neutral]))).quiet
        (.of_trace rfl rfl rfl rfl rfl rfl rfl)
  | link | rejException | remoteBusy | frmr => exact h.quiet (.of_trace rfl rfl rfl rfl rfl rfl rfl)
  | reset => exact .resetState s
  | ack _ _ =>
      have hsession : session (s.trace ++ [.acked (ctrlNr ctrl)]) = _ := session_snoc s.trace _
      refine h.of_session rfl rfl ?_ ?_
      · exact (congrArg Session.sent hsession).trans rfl
      · exact (Serial.le_advance _ _).trans_eq (congrArg Session.acked hsession).symm
  | arm fromSeq _ _ _ => exact h.of_session rfl rfl rfl (Nat.le_refl _)

theorem Kept.rxBytes (hp : st.platform.Passive) {s : Ctx} (h : Kept w s) (bytes : List UInt8) :
    Kept w (rxBytes st s bytes) := by
  refine rxBytes_induct (Q := fun _ => Kept w) (fun s t hs => ?_) (fun s address ctrl info hs => ?_)
    (fun ctrl s s' he hs => hs.effect hp he) (fun _ _ hs => hs) h bytes
  · exact hs.quiet (.of_trace rfl rfl rfl rfl rfl rfl rfl)
  · have hsession : session (s.trace ++ [.dispatch address ctrl info]) = session s.trace :=
      session_snoc s.trace _
    exact hs.of_session rfl rfl (congrArg Session.sent hsession) (congrArg Session.acked hsession).ge

theorem Deed.kept (hp : st.platform.Passive) {call : Call} (hcall : ∀ data, call ≠ .transmitI data)
    {s s' : Ctx} (h : Deed st call s s') (hs : Kept w s) : Kept w s' := by
  cases h with
  | put f => exact hs.quiet (.put st s f)
  | loose crc os hos _ =>
      have hneutral : ∀ o ∈ os, Neutral o := by
        intro o ho
        have hloose := hos o ho
        cases o <;> first | exact hloose.elim | trivial
      exact (hs.quiet (.logs s hneutral)).quiet (.of_trace rfl rfl rfl rfl rfl rfl rfl)
  | t1Start => exact hs.quiet (.t1Start st s)
  | t2Stop => exact hs.quiet (.t2Stop st s)
  | event event => exact hs.quiet (.onEvent hp s event)
  | reset _ => exact .resetState s
  | accept w data h _ => exact absurd h (hcall data)
  | cursor next h _ | advance vs h _ =>
      obtain ⟨data, hdata⟩ := h
      exact absurd hdata (hcall data)
  | _ => exact hs.quiet (.of_trace rfl rfl rfl rfl rfl rfl rfl)

/-- A payload that spares the open frames is accepted into a slot of its own. -/
theorem Kept.acceptI {s : Ctx} (h : Kept w s) (hinv : WindowInv w s) {data : Payload}
    (hdata : data.NonNull) (hroom : outstanding s < w.slotCount) (hclear : Clear w s data) :
    Kept w (acceptI st w s data) := by
  rw [acceptI_eq s hdata]
  extract_lets next filled' stored sent stopped
  have hsession : session stored.trace =
      ⟨(session s.trace).sent ++ [data.read], (session s.trace).acked⟩ := session_snoc s.trace _
  have hfilled : Kept w stored := by
    intro k hk hlive
    simp only [hsession] at hk hlive ⊢
    have hread : readSlot w stored (k % w.slotCount) = readSlot w (filled w s data) (k % w.slotCount) :=
      readSlot_congr rfl rfl _
    have hout : outstanding s = (session s.trace).sent.length - (session s.trace).acked :=
      outstanding_eq hinv.va hinv.vs hinv.acked_le hinv.lt_mod8
    have hacked := hinv.acked_le
    rw [hread]
    rcases Nat.lt_or_ge k (session s.trace).sent.length with hlt | hge
    · have hne := hinv.slot_ne_cursor hlt (by omega)
      rw [readSlot_filled_of_clear hne fun i hi j hj => hclear k hlt hlive i hi j
        (hj.trans_eq hdata.length_read), h k hlt hlive, List.getElem_append_left hlt]
    · have hlast : k = (session s.trace).sent.length := by
        rw [List.length_append, List.length_singleton] at hk
        omega
      subst hlast
      rw [← hinv.cursor, readSlot_filled hdata, List.getElem_concat_length rfl]
  have hput : Still stored { sent with vs := (s.vs + 1) % mod8 } :=
    (Quiet.put st stored _).still.trans (Still.setVs sent _)
  have hsent : Kept w { sent with vs := (s.vs + 1) % mod8 } := by
    obtain ⟨os, hos, htrace⟩ := hput.trace
    have hsame : session sent.trace = session stored.trace := by
      rw [← session_neutral stored.trace hos]
      exact congrArg session htrace
    exact hfilled.of_session hput.slots hput.slotLens (congrArg Session.sent hsame)
      (congrArg Session.acked hsame).ge
  have hstopped : Kept w stopped := hsent.quiet (.t2Stop st _)
  split_ifs
  · exact hstopped.quiet (.t1Start st _)
  · exact hstopped

theorem Call.kept (hw : st.txWindow = some w) (hp : st.platform.Passive) {s : Ctx} (h : Kept w s)
    (hinv : WindowInv w s) {call : Call} (hlegal : call.Legal) (hspares : Spares st s call) :
    Kept w (call.run st s) := by
  cases hcall : call with
  | dataIn bytes =>
      have hread := h.rxBytes hp bytes
      have hinv' := hinv.rxBytes hp bytes
      simp only [run, AtcHdlc.dataIn, retransmitIfPending, hw]
      split_ifs
      · exact hread.quiet (retransmitOutstanding_quiet hinv'.vs_lt hinv'.from_lt)
      · exact hread
  | transmitI data =>
      subst hcall
      by_cases hok : (AtcHdlc.transmitI st s data).1 = .ok
      · obtain ⟨-, w', ⟨hw', hroom⟩, haccepted⟩ := transmitI_ok hok
        obtain rfl : w = w' := Option.some.inj (hw.symm.trans hw')
        simp only [run, haccepted]
        exact h.acceptI hinv hlegal hroom (hspares hok w hw)
      · simp only [run, transmitI_of_not_ok hok]
        exact h
  | _ =>
      rw [← hcall]
      exact (Call.deeds st s hlegal (by simp [hcall])).induct (P := Kept w)
        (fun _ _ hd hs => hd.kept hp (by simp [hcall]) hs) h

/-- In every run whose payloads spare the open frames, the slots hold what was accepted. -/
theorem ReachableBy.kept (hw : st.txWindow = some w) (hp : st.platform.Passive) {mem : Memory} {s : Ctx}
    (h : ReachableBy st mem (Spares st) s) : Kept w s := by
  induction h with
  | init => exact fun k hk => absurd hk (Nat.not_lt_zero k)
  | call call hs hlegal hspares ih => exact Call.kept hw hp ih (hs.reachable.windowInv hw hp) hlegal hspares

/-- Where the slots are apart, every payload spares the open frames. -/
theorem WindowInv.spares {s : Ctx} (hw : st.txWindow = some w) (hapart : SlotsApart w w.slotCapacity)
    (hinv : WindowInv w s) (call : Call) : Spares st s call := by
  cases call with
  | transmitI data =>
      intro hok w' hw'
      obtain rfl : w = w' := Option.some.inj (hw.symm.trans hw')
      obtain ⟨hlen, w', ⟨hw', hroom⟩, -⟩ := transmitI_ok hok
      obtain rfl : w = w' := Option.some.inj (hw.symm.trans hw')
      have hdata : data.len ≤ w.slotCapacity := hlen.trans (st.slotCapacity_min w hw)
      intro k hk hlive i hi j hj
      have hout : outstanding s = (session s.trace).sent.length - (session s.trace).acked :=
        outstanding_eq hinv.va hinv.vs hinv.acked_le hinv.lt_mod8
      have hread := hinv.stored w.slotCapacity hapart hinv.fits k hk (by omega)
      have hfits : s.slotLens (k % w.slotCount) ≤ w.slotCapacity := by
        rw [← readSlot_length (w := w), hread]
        exact hinv.fits _ (List.getElem_mem hk)
      rcases hapart _ (Nat.mod_lt k w.slotCount_pos) _ hinv.cursor_lt
        (hinv.slot_ne_cursor hk (by omega)) with hle | hle
      · omega
      · omega
  | _ => trivial

theorem Reachable.spares (hp : st.platform.Passive) (hapart : ∀ w ∈ st.txWindow, SlotsApart w w.slotCapacity)
    {mem : Memory} {s : Ctx} (h : Reachable st mem s) : ReachableBy st mem (Spares st) s := by
  induction h with
  | init => exact .init
  | @call s call hs hlegal ih =>
      refine .call call ih hlegal ?_
      cases hw : st.txWindow with
      | none =>
          cases call with
          | transmitI data =>
              intro _ w hw'
              exact absurd (hw.symm.trans hw') (by simp)
          | _ => trivial
      | some w => exact (hs.windowInv hw hp).spares hw (hapart w hw) call

end Slots

/-! ### The call that goes back -/

section Back

variable {st : Station}

/-- A supervisory frame with a valid N(R) that asks for what is open: a REJ, or a final response. -/
structure AsksAgain (s : Ctx) (f : Received) : Prop where
  kind : isSframe f.ctrl = true
  valid : nrValid s (ctrlNr f.ctrl) = true
  asks : ctrlS f.ctrl = sRej ∨ isCmd s f.address = false ∧ ctrlPf f.ctrl = true

/-- From `s` to `s'` the I-frames from V(A) to V(S) - 1 are repeated in order, with P = 0, N(R) = V(R) and
the payloads that were accepted, and no others; nothing else of the window changes, and T1 runs. -/
structure GoesBack (st : Station) (s s' : Ctx) : Prop where
  sent : (session s'.trace).sent = (session s.trace).sent
  va : s'.va = (session s'.trace).acked % mod8
  vs : s'.vs = (session s'.trace).sent.length % mod8
  window : (session s'.trace).sent.length < (session s'.trace).acked + mod8
  repeats : ((wires s'.trace).drop (wires s.trace).length).filter (isIframe ·.ctrl) =
    (List.range' (session s'.trace).acked ((session s'.trace).sent.length - (session s'.trace).acked)).map
      fun k => Frame.wire st.crc ⟨s'.peerAddress, iCtrl k s'.vr false, (session s'.trace).sent.getD k []⟩
  vs_same : s'.vs = s.vs
  cursor : s'.txNextSlot = s.txNextSlot
  running : s'.t1Active = true

/-- Frames are dispatched in the context of the chunk, but for the parser. -/
theorem chunkFrames_head {s t : Ctx} {bytes : List UInt8} {f : Received} {rest : List (Ctx × Received)}
    (h : chunkFrames st s bytes = (t, f) :: rest) : ∃ p, t = s.withParser p := by
  induction bytes generalizing s with
  | nil => simp [chunkFrames] at h
  | cons byte bytes ih =>
      rw [chunkFrames] at h
      have hbyte := rxByte_completed st s byte
      cases hc : completed s byte with
      | some g =>
          rw [hc] at h
          obtain ⟨hhead, -⟩ := List.cons.inj h
          exact ⟨s, (congrArg Prod.fst hhead).symm⟩
      | none =>
          rw [hc] at h hbyte
          obtain ⟨p, hp⟩ := ih h
          refine ⟨p, hp.trans ?_⟩
          rw [hbyte]
          rfl

/-- What a chunk of one frame leaves is what the frame leaves, but for the parser. -/
theorem rxBytes_singleton {β : Type} (π : Ctx → β) (hparser : ∀ s t, π (s.withParser t) = π s) {s t : Ctx}
    {bytes : List UInt8} {f : Received} (h : chunkFrames st s bytes = [(t, f)]) :
    π (rxBytes st s bytes) = π (f.dispatch st t) := by
  rw [rxBytes_last st π hparser, h]
  rfl

theorem AsksAgain.unnumbered {s : Ctx} {f : Received} (h : AsksAgain s f) :
    isUframe f.ctrl = false ∧ isIframe f.ctrl = false := by
  rcases ctrl_cases f.ctrl with ⟨-, hs, -⟩ | ⟨hi, -, hu⟩ | ⟨-, hs, -⟩
  · exact absurd (h.kind.symm.trans hs) (by decide)
  · exact ⟨hu, hi⟩
  · exact absurd (h.kind.symm.trans hs) (by decide)

/-- Such a frame moves V(A) to its N(R), and arms the retransmission from there on if that leaves frames
open. -/
theorem AsksAgain.counters (hp : st.platform.Passive) {s : Ctx} (hw : Windowed st s)
    (hstate : s.currentState = .connected) {bytes : List UInt8} {t : Ctx} {f : Received}
    (hone : chunkFrames st s bytes = [(t, f)]) (hasks : AsksAgain s f) :
    (rxBytes st s bytes).va = ctrlNr f.ctrl ∧ (rxBytes st s bytes).vs = s.vs ∧
      (ctrlNr f.ctrl ≠ s.vs → s.vs < mod8 → (rxBytes st s bytes).retransmitPending = true ∧
        (rxBytes st s bytes).retransmitFrom = ctrlNr f.ctrl) := by
  obtain ⟨p, rfl⟩ := chunkFrames_head hone
  have hview := ackView_rxBytes hp hw bytes
  rw [hone] at hview
  have hnext : ackView (rxBytes st s bytes) = (ackView s).next (s, f) := hview
  have hresets : resets s f.ctrl = false := by simp [resets, hasks.unnumbered.1]
  obtain ⟨hvs, hva⟩ := next_of_not_resets (v := ackView s) (x := (s, f)) hresets
  have hnr : ((ackView s).next (s, f)).va = ctrlNr f.ctrl := by
    rw [hva]
    split_ifs with hacks
    · rfl
    · by_contra hne
      have hmoves : ctrlNr f.ctrl ≠ s.va := Ne.symm hne
      exact hacks (by simp [acks, hstate, hasks.unnumbered.1, hasks.valid, hmoves])
  refine ⟨(congrArg AckView.va hnext).trans hnr, (congrArg AckView.vs hnext).trans hvs, fun hopen hlt => ?_⟩
  have harms : armsFrame (s, f) = true := by
    simp only [armsFrame, arms, hstate, hasks.kind, hasks.valid, Bool.and_eq_true, Bool.or_eq_true,
      decide_eq_true_eq, true_and, Bool.not_eq_true']
    exact ⟨hopen, hasks.asks⟩
  obtain ⟨hpending, hfrom, -⟩ := next_of_arms harms hlt
  exact ⟨(congrArg AckView.retransmitPending hnext).trans hpending,
    (congrArg AckView.retransmitFrom hnext).trans hfrom⟩

/-- What it puts on the line itself is no I-frame. -/
theorem AsksAgain.face (hp : st.platform.Passive) {s : Ctx} (hstate : s.currentState = .connected)
    {bytes : List UInt8} {t : Ctx} {f : Received} (hone : chunkFrames st s bytes = [(t, f)])
    (hasks : AsksAgain s f) :
    ∃ l : List Wire, (∀ x ∈ l, isIframe x.ctrl = false) ∧
      AtcHdlc.face (rxBytes st s bytes) = { AtcHdlc.face s with wires := wires s.trace ++ l } := by
  obtain ⟨p, rfl⟩ := chunkFrames_head hone
  have hview : linkView (rxBytes st s bytes) = (linkView s).next st s f :=
    (rxBytes_singleton linkView (fun _ _ => rfl) hone).trans (dispatchFrame_linkView hp _ f)
  have hnext : (linkView s).next st s f =
      (((linkView s).busy st (ctrlS f.ctrl)).poll st (isCmd s f.address && ctrlPf f.ctrl)).tell
        (opened st s (ctrlNr f.ctrl)) := by
    unfold LinkView.next
    simp only [hstate, hasks.unnumbered.1, hasks.unnumbered.2, hasks.valid, Bool.false_eq_true, if_false,
      not_true]
  refine ⟨if (isCmd s f.address && ctrlPf f.ctrl) = true then
    [Frame.wire st.crc ⟨s.myAddress, sCtrl sRr s.vr true, []⟩] else [], ?_, ?_⟩
  · intro x hx
    split_ifs at hx
    · rw [List.mem_singleton.mp hx]
      exact (sCtrl_kind _ _ _).2
    · exact absurd hx List.not_mem_nil
  · rw [AtcHdlc.face, hview, hnext, LinkView.face_tell, LinkView.face_poll, LinkView.face_busy]
    have hwires : wires (linkView s).line = wires s.trace := wires_onLine s.trace
    split_ifs
    · rw [← hwires]
      rfl
    · rw [List.append_nil, ← hwires]
      rfl

/-- Such a frame leaves the payloads of the session as they are. -/
theorem AsksAgain.sent (hp : st.platform.Passive) {w : TxWindow} {s : Ctx} (hw : Windowed st s)
    (hinv : WindowInv w s) {bytes : List UInt8} {t : Ctx} {f : Received}
    (hone : chunkFrames st s bytes = [(t, f)]) (hasks : AsksAgain s f) :
    (session (rxBytes st s bytes).trace).sent = (session s.trace).sent := by
  obtain ⟨p, rfl⟩ := chunkFrames_head hone
  have hparser : WindowInv w (s.withParser p) := hinv.quiet (.of_trace rfl rfl rfl rfl rfl rfl rfl)
  have hresets : resets (s.withParser p) f.ctrl = false := by simp [resets, hasks.unnumbered.1]
  have hwindowed : Windowed st (s.withParser p) := hw
  have hdispatch := session_dispatch hp hwindowed hparser f
  rw [hresets, if_neg Bool.false_ne_true] at hdispatch
  rw [rxBytes_singleton (fun s => session s.trace) (fun _ _ => rfl) hone, hdispatch]
  split_ifs <;> rfl

/-- The call that begins with a frame that leaves frames open, and with their payloads in the slots. -/
theorem goesBack_of_kept {w : TxWindow} {s t : Ctx} (hinv : WindowInv w t)
    (hkept : Kept w t) (hfrom : t.retransmitFrom = t.va) (hsent : (session t.trace).sent = (session s.trace).sent)
    (hvs : t.vs = s.vs) (hcursor : t.txNextSlot = s.txNextSlot) {l : List Wire}
    (hl : ∀ x ∈ l, isIframe x.ctrl = false) (hwires : wires t.trace = wires s.trace ++ l) :
    GoesBack st s (retransmitOutstanding st w t) := by
  have hquiet := @retransmitOutstanding_quiet st w t hinv.vs_lt hinv.from_lt
  have hsession : session (retransmitOutstanding st w t).trace = session t.trace := by
    obtain ⟨os, hos, htrace⟩ := hquiet.trace
    rw [htrace, session_neutral _ hos]
  have hview := @retransmitOutstanding_linkView st w t hinv _ (hfrom.trans hinv.va) hinv.acked_le hinv.sent_le
  have hface := congrArg LinkView.face hview
  rw [LinkView.face_sayAll] at hface
  have hpeer : (retransmitOutstanding st w t).peerAddress = t.peerAddress := congrArg Face.peerAddress hface
  have hvr : (retransmitOutstanding st w t).vr = t.vr := congrArg Face.vr hface
  have hline : wires (retransmitOutstanding st w t).trace = wires t.trace ++
      ((List.range' (session t.trace).acked ((session t.trace).sent.length - (session t.trace).acked)).map
        (repeated w t)).map (Frame.wire st.crc) := by
    rw [← face_wires, ← face_wires t]
    exact congrArg Face.wires hface
  refine ⟨?_, ?_, ?_, ?_, ?_, hquiet.vs.trans hvs, hquiet.cursor.trans hcursor, rfl⟩
  · rw [hsession, hsent]
  · rw [hquiet.va, hsession]
    exact hinv.va
  · rw [hquiet.vs, hsession]
    exact hinv.vs
  · rw [hsession]
    exact hinv.lt_mod8
  · rw [hline, hwires, List.append_assoc, List.drop_left, List.filter_append,
      List.filter_eq_nil_iff.mpr fun x hx => by simp [hl x hx], List.nil_append, List.map_map, hsession, hpeer,
      hvr]
    rw [List.filter_eq_self.mpr ?_]
    · refine List.map_congr_left fun k hk => ?_
      rw [List.mem_range'_1] at hk
      have hlive : k < (session t.trace).sent.length := by omega
      rw [Function.comp_apply, repeated, hkept k hlive hk.1, List.getD_eq_getElem _ _ hlive]
    · intro x hx
      obtain ⟨k, -, rfl⟩ := List.mem_map.mp hx
      exact (iCtrl_fields k t.vr false).1

/-- Where the payloads of a run spared the open frames, a frame that asks for what is open has it repeated
to the octet. -/
theorem retransmission_exact (hp : st.platform.Passive) {mem : Memory} {s : Ctx}
    (hs : ReachableBy st mem (Spares st) s) (hstate : s.currentState = .connected) {bytes : List UInt8}
    {t : Ctx} {f : Received} (hone : chunkFrames st s bytes = [(t, f)]) (hasks : AsksAgain s f)
    (hopen : (dataIn st s bytes).va ≠ (dataIn st s bytes).vs) :
    GoesBack st s (dataIn st s bytes) := by
  have hwindowed : Windowed st s := hs.reachable.windowed hp
  have hinv : ∀ w, st.txWindow = some w → WindowInv w (rxBytes st s bytes) :=
    fun w hw => (hs.reachable.windowInv hw hp).rxBytes hp bytes
  obtain ⟨hva, hvs, harmed⟩ := hasks.counters hp hwindowed hstate hone
  have hne : ctrlNr f.ctrl ≠ s.vs := by
    have hvis := retransmitIfPending_vis hinv
    intro heq
    have hsame : (dataIn st s bytes).va = (dataIn st s bytes).vs :=
      calc (dataIn st s bytes).va = (rxBytes st s bytes).va := (congrArg Ctx.va hvis).trans rfl
        _ = ctrlNr f.ctrl := hva
        _ = s.vs := heq
        _ = (rxBytes st s bytes).vs := hvs.symm
        _ = (dataIn st s bytes).vs := (congrArg Ctx.vs hvis).symm.trans rfl
    exact hopen hsame
  cases hw : st.txWindow with
  | none => exact absurd hw (hwindowed.some_of_ne hasks.valid hne)
  | some w =>
      have hbefore := hs.reachable.windowInv hw hp
      obtain ⟨hpending, hfrom⟩ := harmed hne hbefore.vs_lt
      obtain ⟨l, hl, hface⟩ := hasks.face hp hstate hone
      have hsent := hasks.sent hp hwindowed hbefore hone
      have hend : dataIn st s bytes = retransmitOutstanding st w (rxBytes st s bytes) := by
        simp only [dataIn, retransmitIfPending, hpending, hw, if_true]
      have hcursor : (rxBytes st s bytes).txNextSlot = s.txNextSlot := by
        rw [(hinv w hw).cursor, hbefore.cursor, hsent]
      have hwires : wires (rxBytes st s bytes).trace = wires s.trace ++ l := by
        rw [← face_wires, hface]
      rw [hend]
      exact goesBack_of_kept (hinv w hw) ((hs.kept hw hp).rxBytes hp bytes) (hfrom.trans hva.symm) hsent hvs
        hcursor hl hwires

/-- The run opens a session and sends the payloads. -/
def sending (payloads : List (List UInt8)) : List Call :=
  [.linkSetup 0x02, .dataIn (Frame.octets crcOpsDefault ⟨0x02, uCtrl uUa true, []⟩)] ++
    payloads.map fun payload => .transmitI (.octets payload)

/-- The peer asks for all frames from number 0 on. -/
def rejOctets : List UInt8 := Frame.octets crcOpsDefault ⟨0x01, sCtrl sRej 0 false, []⟩

theorem one_of_ctrl {s : Ctx} {bytes : List UInt8} {ctrl : UInt8}
    (h : (chunkFrames st s bytes).map (fun x => x.2.ctrl) = [ctrl]) :
    ∃ t f, chunkFrames st s bytes = [(t, f)] ∧ f.ctrl = ctrl := by
  obtain ⟨⟨t, f⟩, hone, hctrl⟩ := List.map_eq_singleton_iff.mp h
  exact ⟨t, f, hone, hctrl⟩

theorem retransmission_exact_mock :
    GoesBack (mockStation 0x01 3 (by decide) (by decide)) (mockRun (sending [[0x11], [0x22, 0x23]]))
      (dataIn (mockStation 0x01 3 (by decide) (by decide)) (mockRun (sending [[0x11], [0x22, 0x23]]))
        rejOctets) := by
  have hone : (chunkFrames (mockStation 0x01 3 (by decide) (by decide))
      (mockRun (sending [[0x11], [0x22, 0x23]])) rejOctets).map (fun x => x.2.ctrl) =
        [sCtrl sRej 0 false] := by decide +kernel
  obtain ⟨t, f, hone, hctrl⟩ := one_of_ctrl hone
  have hreach : ReachableBy (mockStation 0x01 3 (by decide) (by decide)) zeroMemory
      (Spares (mockStation 0x01 3 (by decide) (by decide))) (mockRun (sending [[0x11], [0x22, 0x23]])) :=
    ReachableBy.init.foldl (by decide) (by decide +kernel)
  refine retransmission_exact mockPlatform_passive hreach ?_ hone ?_ ?_
  · decide +kernel
  · refine ⟨?_, ?_, Or.inl ?_⟩
    · rw [hctrl]
      decide
    · rw [hctrl]
      decide +kernel
    · rw [hctrl]
      decide
  · decide +kernel

/-- Three slots of 2 ^ 31 octets: the third is where the first is. -/
def wideStation : Station where
  config := ⟨modeAbm, 0x01, 4, 3, 1000, 10⟩
  platform := mockPlatform
  crc := crcOpsDefault
  txWindow := some ⟨2 ^ 31, 3, threeSlots_pos, threeSlots_le⟩
  rxCapacity := 16
  mode_abm := Eq.refl modeAbm
  rxCapacity_min := by simp
  rxCapacity_frame := by decide
  slotCapacity_min := by simp

/-- No call of `atc_hdlc_data_in` completes more than one frame. -/
def AtMostOne (st : Station) (s : Ctx) : Call → Prop
  | .dataIn bytes => (chunkFrames st s bytes).length ≤ 1
  | _ => True

instance (st : Station) (s : Ctx) (call : Call) : Decidable (AtMostOne st s call) :=
  match call with
  | .dataIn _ => inferInstanceAs (Decidable (_ ≤ _))
  | .t1Expired | .t2Expired | .linkSetup _ | .disconnect | .linkReset | .abort | .setLocalBusy _
  | .transmitUi _ _ | .transmitTest _ _ | .transmitI _ | .transmitUiStart _ | .transmitUiData _
  | .transmitUiEnd => .isTrue trivial

def wideOpen : Ctx :=
  (sending [[0x11], [0x22], [0x33]]).foldl (Call.run wideStation) (initCtx wideStation zeroMemory)

/-- Frame 0 is repeated with the payload of frame 2. -/
theorem overlapping_slots_repeat_wrong :
    ReachableBy wideStation zeroMemory (AtMostOne wideStation) wideOpen ∧
      wideOpen.currentState = .connected ∧
      (∃ t f, chunkFrames wideStation wideOpen rejOctets = [(t, f)] ∧ AsksAgain wideOpen f) ∧
      (dataIn wideStation wideOpen rejOctets).va ≠ (dataIn wideStation wideOpen rejOctets).vs ∧
      ¬GoesBack wideStation wideOpen (dataIn wideStation wideOpen rejOctets) := by
  refine ⟨ReachableBy.init.foldl (by decide) (by decide +kernel), by decide +kernel, ?_, by decide +kernel,
    fun h => absurd h.repeats (by decide +kernel)⟩
  have hone : (chunkFrames wideStation wideOpen rejOctets).map (fun x => x.2.ctrl) = [sCtrl sRej 0 false] := by
    decide +kernel
  obtain ⟨t, f, hone, hctrl⟩ := one_of_ctrl hone
  refine ⟨t, f, hone, ?_, ?_, Or.inl ?_⟩
  · rw [hctrl]
    decide
  · rw [hctrl]
    decide +kernel
  · rw [hctrl]
    decide

end Back

end AtcHdlc
