import AtcHdlc.Calls
import AtcHdlc.Simulation

/-! One call of `atc_hdlc_transmit_i` takes a payload as a whole or not at all. Where no check turns it
down, one I-frame is on the line and the same octets are in the slot that a retransmission of its number
reads; where a check does, nothing has changed. -/

namespace AtcHdlc

/-- A check of `atc_hdlc_transmit_i` turns the call down. -/
def Refused (st : Station) (s : Ctx) (data : Payload) : Prop :=
  s.currentState ≠ .connected ∨ s.remoteBusy = true ∨ st.config.maxInfoSize < data.len ∨
    ∀ w ∈ st.txWindow, w.slotCount ≤ outstanding s

instance (st : Station) (s : Ctx) (data : Payload) : Decidable (Refused st s data) :=
  inferInstanceAs (Decidable (_ ∨ _ ∨ _ ∨ ∀ w ∈ st.txWindow, _))

/-- The slot with which `retransmit_outstanding` begins when it goes back to a number. -/
def retransmitSlot (w : TxWindow) (s : Ctx) (number : Nat) : Nat :=
  u8 (((s.txNextSlot : Int) + w.slotCount -
    u8 (((s.vs : Int) - number + mod8).tmod mod8)).tmod w.slotCount)

/-- A payload has gone out: one I-frame with the next number, its octets in the slot that every later
retransmission has reached at that number, wherever in the window it begins. -/
structure Transmitted (st : Station) (w : TxWindow) (s s' : Ctx) (data : Payload) : Prop where
  frame : ∃ f : Frame, isIframe f.ctrl = true ∧ ctrlNs f.ctrl = s.vs ∧ f.address = s.peerAddress ∧
    f.info = data.read ∧ sentOctets s'.trace = sentOctets s.trace ++ f.octets st.crc
  stored : s'.slotLens (retransmitSlot w s' s.vs) = data.len ∧
    readSlot w s' (retransmitSlot w s' s.vs) = data.read
  later : ∀ calls : List Call, (∀ call ∈ calls, call.Legal) →
    let t := calls.foldl (Call.run st) s'
    let k := (session s.trace).sent.length
    k < (session t.trace).sent.length → ∀ m ≤ k, (session t.trace).acked ≤ m →
      (retransmitSlot w t (m % mod8) + (k - m)) % w.slotCount = retransmitSlot w s' s.vs
  vs : s'.vs = (s.vs + 1) % mod8

/-- Either the payload is taken as a whole or nothing has changed, and no absent data is read. -/
structure AllOrNothing (st : Station) (s : Ctx) (data : Payload) : Prop where
  whole : (transmitI st s data).1 = .ok ∧
      (∃ w ∈ st.txWindow, Transmitted st w s (transmitI st s data).2 data) ∨
    (transmitI st s data).1 ≠ .ok ∧ (transmitI st s data).2 = s
  present : data.isNull = true → 0 < data.len → (transmitI st s data).1 ≠ .ok
  unread : (transmitI st s data).2.trace.count .nullRead = s.trace.count .nullRead

section Atomic

variable {st : Station} {w : TxWindow} {s : Ctx} {data : Payload}

/-- The call succeeds just when no check turns it down; the slots are never too small. -/
theorem transmitI_ok_iff : (transmitI st s data).1 = .ok ↔ ¬Refused st s data := by
  unfold transmitI Refused
  cases hw : st.txWindow with
  | none =>
      split_ifs
      all_goals simp
  | some w =>
      have hcap := st.slotCapacity_min w hw
      simp only [Option.mem_some_iff, forall_eq']
      split_ifs with hstate hbusy hlen hslot hfull
      · simp [hstate]
      · simp [hbusy]
      · simp [hlen]
      · omega
      · simp [hfull]
      · simp [not_not.mp hstate, hbusy, Nat.le_of_not_lt hlen, Nat.lt_of_not_le hfull]

theorem Refused.transmitI_eq (h : Refused st s data) : (transmitI st s data).2 = s :=
  transmitI_of_not_ok fun hok => transmitI_ok_iff.mp hok h

/-- What an accepted payload leaves in the trace: the mark of the acceptance, the frame, and the calls
of the timers. -/
theorem acceptI_trace (hdata : data.NonNull) : ∃ timers : List Obs,
    (∀ o ∈ timers, o = .t2Stop ∨ o = .t1Start st.config.t1Ms) ∧
      (acceptI st w s data).trace = s.trace ++ (.accept data.read ::
        (Frame.obs st.crc s.moment ⟨s.peerAddress, iCtrl s.vs s.vr false, data.read⟩ ++ timers)) := by
  rw [acceptI_eq s hdata]
  extract_lets next logged stored sent stopped
  generalize hstop : (if sent.t2Active && st.platform.t2Stop then [Obs.t2Stop] else []) = stops
  have hstops : ∀ o ∈ stops, o = .t2Stop ∨ o = .t1Start st.config.t1Ms := by
    intro o ho
    rw [← hstop] at ho
    split_ifs at ho
    · exact .inl (List.mem_singleton.mp ho)
    · exact absurd ho List.not_mem_nil
  have htrace : stopped.trace = s.trace ++ (.accept data.read ::
      (Frame.obs st.crc s.moment ⟨s.peerAddress, iCtrl s.vs s.vr false, data.read⟩ ++ stops)) := by
    have hstopped : stopped.trace = sent.trace ++ stops := by
      rw [← hstop]
      rfl
    have hsent : sent.trace = (s.trace ++ [.accept data.read]) ++
        Frame.obs st.crc s.moment ⟨s.peerAddress, iCtrl s.vs s.vr false, data.read⟩ := rfl
    rw [hstopped, hsent]
    simp only [List.append_assoc, List.cons_append, List.nil_append]
  split_ifs
  · refine ⟨stops ++ if st.platform.t1Start then [.t1Start st.config.t1Ms] else [], ?_, ?_⟩
    · intro o ho
      rcases List.mem_append.mp ho with ho | ho
      · exact hstops o ho
      · split_ifs at ho
        · exact .inr (List.mem_singleton.mp ho)
        · exact absurd ho List.not_mem_nil
    · have hstarted : (t1Start st stopped).trace =
          stopped.trace ++ if st.platform.t1Start then [.t1Start st.config.t1Ms] else [] := rfl
      rw [hstarted, htrace]
      simp only [List.append_assoc, List.cons_append]
  · exact ⟨stops, hstops, htrace⟩

theorem sentOctets_append (l r : List Obs) : sentOctets (l ++ r) = sentOctets l ++ sentOctets r :=
  List.filterMap_append

theorem sentOctets_acceptI (hdata : data.NonNull) : sentOctets (acceptI st w s data).trace =
    sentOctets s.trace ++ Frame.octets st.crc ⟨s.peerAddress, iCtrl s.vs s.vr false, data.read⟩ := by
  obtain ⟨timers, htimers, htrace⟩ := @acceptI_trace st w s data hdata
  have hsilent : sentOctets timers = [] := by
    refine List.filterMap_eq_nil_iff.mpr fun o ho => ?_
    rcases htimers o ho with rfl | rfl
    · rfl
    · rfl
  have hmark (os : List Obs) : sentOctets (.accept data.read :: os) = sentOctets os := rfl
  rw [htrace, sentOctets_append, hmark, sentOctets_append, sentOctets_obs, hsilent, List.append_nil]

theorem count_nullRead_acceptI (hdata : data.NonNull) :
    (acceptI st w s data).trace.count .nullRead = s.trace.count .nullRead := by
  obtain ⟨timers, htimers, htrace⟩ := @acceptI_trace st w s data hdata
  rw [htrace, List.count_append, Nat.add_eq_left]
  refine List.count_eq_zero.mpr fun hmem => ?_
  rcases List.mem_cons.mp hmem with hmark | hmem
  · exact absurd hmark (by simp)
  · rcases List.mem_append.mp hmem with hframe | htimer
    · rcases Frame.mem_obs hframe with hmark | ⟨byte, flush, hmark⟩
      · exact absurd hmark (by simp)
      · exact absurd hmark (by simp)
    · rcases htimers _ htimer with hmark | hmark
      · exact absurd hmark (by simp)
      · exact absurd hmark (by simp)

/-- The payload is in its slot, and V(S) has gone on by one. -/
theorem acceptI_stored (hdata : data.NonNull) :
    (acceptI st w s data).slots = (filled w s data).slots ∧
      (acceptI st w s data).slotLens = (filled w s data).slotLens ∧
      (acceptI st w s data).vs = (s.vs + 1) % mod8 := by
  rw [acceptI_eq s hdata]
  extract_lets next logged stored sent stopped
  split_ifs
  · exact ⟨rfl, rfl, rfl⟩
  · exact ⟨rfl, rfl, rfl⟩

/-- The slot of a number of the window, or of the one before. -/
theorem WindowInv.retransmitSlot_eq (h : WindowInv w s) {k : Nat}
    (hle : k ≤ (session s.trace).sent.length) (hwindow : (session s.trace).sent.length ≤ k + w.slotCount) :
    retransmitSlot w s (k % mod8) = k % w.slotCount := by
  have hback : WindowInv w { s with retransmitFrom := k % mod8 } :=
    ⟨h.acked_le, h.sent_le, h.va, h.vs, h.cursor, h.stored, h.fits, Nat.mod_lt k (by decide), h.acks⟩
  exact hback.slotIdx_eq rfl hle hwindow

/-- An accepted payload has gone out. -/
theorem WindowInv.transmitted (hw : st.txWindow = some w) (hp : st.platform.Passive) (h : WindowInv w s)
    (hdata : data.NonNull) (hlen : data.len ≤ w.slotCapacity) (hroom : outstanding s < w.slotCount) :
    Transmitted st w s (AtcHdlc.acceptI st w s data) data := by
  have hafter : WindowInv w (AtcHdlc.acceptI st w s data) := h.acceptI hdata hlen hroom
  obtain ⟨timers, htimers, htrace⟩ := @acceptI_trace st w s data hdata
  have hsent : (session (AtcHdlc.acceptI st w s data).trace).sent.length =
      (session s.trace).sent.length + 1 := by
    have hneutral : ∀ o ∈
        Frame.obs st.crc s.moment ⟨s.peerAddress, iCtrl s.vs s.vr false, data.read⟩ ++ timers, Neutral o := by
      intro o ho
      rcases List.mem_append.mp ho with ho | ho
      · rcases Frame.mem_obs ho with rfl | ⟨byte, flush, rfl⟩
        · trivial
        · trivial
      · rcases htimers o ho with rfl | rfl
        · trivial
        · trivial
    rw [htrace, List.append_cons, session_neutral _ hneutral, session_snoc]
    exact List.length_append
  obtain ⟨hslots, hlens, hvs⟩ := @acceptI_stored st w s data hdata
  have hcount := w.slotCount_pos
  have hnumber : s.vs = (session s.trace).sent.length % mod8 := h.vs
  have hslot : retransmitSlot w (AtcHdlc.acceptI st w s data) s.vs = s.txNextSlot := by
    rw [hnumber, h.cursor]
    exact hafter.retransmitSlot_eq (by omega) (by omega)
  refine ⟨⟨⟨s.peerAddress, iCtrl s.vs s.vr false, data.read⟩, ?_, ?_, rfl, rfl, sentOctets_acceptI hdata⟩,
    ?_, ?_, ?_⟩
  · exact (iCtrl_fields s.vs s.vr false).1
  · exact (iCtrl_fields s.vs s.vr false).2.1.trans (Nat.mod_eq_of_lt h.vs_lt)
  · have hfilled : readSlot w (AtcHdlc.acceptI st w s data) s.txNextSlot = data.read := by
      rw [readSlot_congr hslots hlens]
      exact AtcHdlc.readSlot_filled hdata
    rw [hslot, ← readSlot_length (w := w), hfilled]
    exact ⟨hdata.length_read, rfl⟩
  · intro calls hlegal
    extract_lets t k
    intro hlive m hm hacked
    have hinv : WindowInv w t := by
      have hrun : ∀ l : List Call, (∀ call ∈ l, call.Legal) → ∀ u, WindowInv w u →
          WindowInv w (l.foldl (Call.run st) u) := by
        intro l
        induction l with
        | nil => exact fun _ u hu => hu
        | cons call l ih =>
            intro hl u hu
            exact ih (fun c hc => hl c (List.mem_cons_of_mem call hc)) _
              (hu.call hw hp call (hl call List.mem_cons_self))
      exact hrun calls hlegal _ hafter
    have hwindow := hinv.sent_le
    rw [hslot, hinv.retransmitSlot_eq (by omega) (by omega), h.cursor, Nat.mod_add_mod, Nat.add_sub_cancel' hm]
  · exact hvs

/-- A call takes the payload as a whole or leaves everything as it was just when there is a payload, or a
check that comes first turns it down: no check asks for the data. -/
theorem allOrNothing_iff (hp : st.platform.Passive) {mem : Memory} (hreach : Reachable st mem s)
    (data : Payload) : AllOrNothing st s data ↔ data.NonNull ∨ Refused st s data := by
  constructor
  · intro h
    by_cases hrefused : Refused st s data
    · exact .inr hrefused
    · refine .inl ?_
      have hok := transmitI_ok_iff.mpr hrefused
      exact Payload.nonNull_iff.mpr fun hnull => h.present hnull.1 hnull.2 hok
  · intro h
    by_cases hrefused : Refused st s data
    · have hsame := hrefused.transmitI_eq
      have herror : (transmitI st s data).1 ≠ .ok := fun hok => transmitI_ok_iff.mp hok hrefused
      exact ⟨.inr ⟨herror, hsame⟩, fun _ _ => herror, by rw [hsame]⟩
    · have hdata : data.NonNull := h.resolve_right hrefused
      have hok := transmitI_ok_iff.mpr hrefused
      obtain ⟨hlen, w, ⟨hw, hroom⟩, haccepted⟩ := transmitI_ok hok
      have hcap := st.slotCapacity_min w hw
      have hgone := (hreach.windowInv hw hp).transmitted hw hp hdata (by omega) hroom
      refine ⟨.inl ⟨hok, w, hw, ?_⟩, fun hnull hpos => ?_, ?_⟩
      · rw [haccepted]
        exact hgone
      · exact absurd ⟨hnull, hpos⟩ (Payload.nonNull_iff.mp hdata)
      · rw [haccepted, count_nullRead_acceptI hdata]

end Atomic

/-- The mock set-up once a UA has answered its set-up. -/
def upAndIdle : Ctx :=
  mockRun [.linkSetup 0x02, .dataIn (Frame.octets crcOpsDefault ⟨0x02, uCtrl uUa true, []⟩)]

theorem upAndIdle_reachable :
    Reachable (mockStation 0x01 3 (by decide) (by decide)) zeroMemory upAndIdle :=
  mockRun_reachable (by decide)

theorem allOrNothing_iff_mock :
    AllOrNothing (mockStation 0x01 3 (by decide) (by decide)) upAndIdle (.octets [0x55]) ↔
      (Payload.octets [0x55]).NonNull ∨
        Refused (mockStation 0x01 3 (by decide) (by decide)) upAndIdle (.octets [0x55]) :=
  allOrNothing_iff mockPlatform_passive upAndIdle_reachable _

/-- A length without data is accepted: the octets on the line and those for the retransmission are
whatever is read where there is nothing. -/
theorem null_payload_accepted :
    let st := mockStation 0x01 3 (by decide) (by decide)
    Reachable st zeroMemory upAndIdle ∧ (transmitI st upAndIdle (.null 3)).1 = .ok ∧
      .nullRead ∈ (transmitI st upAndIdle (.null 3)).2.trace ∧ ¬AllOrNothing st upAndIdle (.null 3) := by
  intro st
  have hok : (transmitI st upAndIdle (.null 3)).1 = .ok := by decide +kernel
  exact ⟨upAndIdle_reachable, hok, by decide +kernel, fun h => h.present rfl (by decide) hok⟩

end AtcHdlc
