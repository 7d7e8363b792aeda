import AtcHdlc.Ended

/-! One enquiry repairs any loss. When T1 expires at a station that is not busy, the other one answers with
what it has received; the rest is then repeated, received, and acknowledged, in whatever portions the frames
are read, and at last the expiry of T2 acknowledges what is still owed. -/

namespace AtcHdlc

open DataLink

/-- Of `r` payloads that a station has received, its partner knows of `a`, the numbers `ms` are on their way,
in order, and the last of them is `r`, unless T2 runs. -/
structure Owes (a r : Nat) (ms : List Nat) (t2Active : Bool) : Prop where
  sorted : (a :: ms).Pairwise (· ≤ ·)
  le : ∀ m ∈ a :: ms, m ≤ r
  covered : t2Active = true ∨ ms.getLastD a = r

namespace Owes

variable {a r : Nat} {ms ms' : List Nat} {t2Active t2Active' : Bool}

theorem getLastD_append (a : Nat) (l l' : List Nat) : (l ++ l').getLastD a = l'.getLastD (l.getLastD a) := by
  induction l generalizing a with
  | nil => rfl
  | cons b l ih => rw [List.cons_append, List.getLastD_cons, List.getLastD_cons, ih]

theorem getLastD_mem (a : Nat) (l : List Nat) : l.getLastD a ∈ a :: l := by
  induction l generalizing a with
  | nil => exact List.mem_singleton_self a
  | cons b l ih =>
      rw [List.getLastD_cons]
      exact List.mem_cons_of_mem a (ih b)

/-- A number that is not below the others. -/
theorem tell (h : Owes a r ms t2Active) {r' : Nat} (hle : r ≤ r') : Owes a r' (ms ++ [r']) t2Active' := by
  refine ⟨?_, fun m hm => ?_, Or.inr ?_⟩
  · rw [← List.cons_append, List.pairwise_append]
    refine ⟨h.sorted, List.pairwise_singleton _ _, fun m hm m' hm' => ?_⟩
    rw [List.mem_singleton.mp hm']
    exact (h.le m hm).trans hle
  · rw [← List.cons_append, List.mem_append] at hm
    rcases hm with hm | hm
    · exact (h.le m hm).trans hle
    · exact (List.mem_singleton.mp hm).le
  · rw [getLastD_append]
    rfl

/-- One more payload: T2 runs, or it is acknowledged at once. -/
theorem receive (h : Owes a r ms t2Active) (hms : ms' = [] ∧ t2Active' = true ∨ ms' = [r + 1]) :
    Owes a (r + 1) (ms ++ ms') t2Active' := by
  rcases hms with ⟨rfl, ht2⟩ | rfl
  · rw [List.append_nil]
    exact ⟨h.sorted, fun m hm => (h.le m hm).trans (Nat.le_succ r), Or.inl ht2⟩
  · exact h.tell (Nat.le_succ r)

/-- The first of the numbers are heard. -/
theorem hear (h : Owes a r (ms ++ ms') t2Active) :
    (a :: ms).Pairwise (· ≤ ·) ∧ a ≤ ms.getLastD a ∧ Owes (ms.getLastD a) r ms' t2Active := by
  have hsorted := h.sorted
  rw [← List.cons_append, List.pairwise_append] at hsorted
  obtain ⟨hfirst, hrest, hcross⟩ := hsorted
  have hlast := getLastD_mem a ms
  refine ⟨hfirst, ?_, List.pairwise_cons.mpr ⟨hcross _ hlast, hrest⟩, fun m hm => ?_, ?_⟩
  · rcases List.mem_cons.mp hlast with heq | hmem
    · exact heq.ge
    · exact (List.pairwise_cons.mp hfirst).1 _ hmem
  · rcases List.mem_cons.mp hm with rfl | hm
    · exact h.le _ (List.mem_append_left ms' hlast)
    · exact h.le m (List.mem_append_right (a :: ms) hm)
  · rw [← getLastD_append]
    exact h.covered

end Owes

/-- An I-frame in sequence: T2 runs, or the station is busy and says so. -/
theorem LinkView.receive_cases (st : Station) (v : LinkView) (payload : List UInt8) :
    (v.receive st false payload).face = v.face.receive payload ∧ (v.receive st false payload).t2Active = true ∨
      (v.receive st false payload).face = (v.face.receive payload).say st.crc
        ⟨v.myAddress, sCtrl sRnr (v.face.receive payload).vr false, []⟩ := by
  unfold receive acknowledge
  simp only [Bool.false_eq_true, if_false]
  split_ifs with ht2
  · exact Or.inl ⟨rfl, ht2⟩
  · exact Or.inr (face_sayS st _ _ _ _)
  · exact Or.inl ⟨rfl, rfl⟩

/-- An RR with the P/F bit: an enquiry to the station `address`, or its answer. -/
def rrFrame (address : UInt8) (nr : Nat) : Frame := ⟨address, sCtrl sRr nr true, []⟩

/-- The I-frames that carry the payloads from the number `k` on. -/
def numbered (address : UInt8) (r : Nat) : Nat → List (List UInt8) → List Frame
  | _, [] => []
  | k, payload :: payloads => ⟨address, iCtrl k r false, payload⟩ :: numbered address r (k + 1) payloads

theorem numbered_take (address : UInt8) (r k n : Nat) (payloads : List (List UInt8)) :
    (numbered address r k payloads).take n = numbered address r k (payloads.take n) := by
  induction payloads generalizing k n with
  | nil => rw [List.take_nil, numbered, List.take_nil]
  | cons payload payloads ih =>
      cases n with
      | zero => rfl
      | succ n => rw [numbered, List.take_succ_cons, ih, List.take_succ_cons, numbered]

theorem numbered_drop (address : UInt8) (r k n : Nat) (payloads : List (List UInt8)) :
    (numbered address r k payloads).drop n =
      numbered address r (k + (payloads.take n).length) (payloads.drop (payloads.take n).length) := by
  induction payloads generalizing k n with
  | nil => rw [List.take_nil, List.drop_nil, numbered, List.drop_nil, numbered]
  | cons payload payloads ih =>
      cases n with
      | zero => rfl
      | succ n =>
          rw [numbered, List.drop_succ_cons, ih, List.take_succ_cons, List.length_cons, List.drop_succ_cons,
            Nat.add_right_comm, Nat.add_assoc]

theorem map_range'_numbered {address : UInt8} {r k : Nat} {payloads : List (List UInt8)} {frame : Nat → Frame}
    (hframe : ∀ i (hi : i < payloads.length), frame (k + i) = ⟨address, iCtrl (k + i) r false, payloads[i]⟩) :
    (List.range' k payloads.length).map frame = numbered address r k payloads := by
  induction payloads generalizing k with
  | nil => rfl
  | cons payload payloads ih =>
      rw [List.length_cons, List.range'_succ, List.map_cons, numbered]
      have hfirst : frame k = ⟨address, iCtrl k r false, payload⟩ := hframe 0 (Nat.zero_lt_succ _)
      have hrest : (List.range' (k + 1) payloads.length).map frame = numbered address r (k + 1) payloads := by
        refine ih fun i hi => ?_
        have hnext := hframe (i + 1) (Nat.succ_lt_succ hi)
        have hcount : k + 1 + i = k + (i + 1) := by omega
        rw [hcount]
        exact hnext
      rw [hfirst, hrest]

section Attends

variable {st : Station} {peer : UInt8} {s : Ctx} {x : Peer (List UInt8)}

/-- A station in CONNECTED between two frames, with nothing armed, and the peer it stands for. -/
structure Attends (st : Station) (peer : UInt8) (s : Ctx) (x : Peer (List UInt8)) : Prop where
  reflects : Reflects st peer 65535 s x
  up : x.link = .up
  index : s.rxIndex = 0
  pending : s.retransmitPending = false

theorem Stands.attends {e : Endpoint} (h : Stands peer 65535 e x) (hup : x.link = .up) :
    Attends e.station peer e.ctx x := ⟨h.reflects, hup, h.index, h.pending⟩

/-- What a station has sent is what it stands for. -/
theorem Reflects.sent_exact (h : Reflects st peer 65535 s x) : x.sent = (session s.trace).sent := by
  rw [h.sent]
  exact (List.map_congr_left fun payload hmem => heardInfo_of_le (h.bounded payload hmem)).trans (List.map_id _)

theorem Attends.connected (h : Attends st peer s x) : s.currentState = .connected :=
  linkOf_up.mp (h.reflects.link.symm.trans h.up)

/-- An N(R) between V(A) and V(S) stands for the frame it is the number of. -/
theorem Attends.advance (h : Attends st peer s x) {m : Nat} (hle : x.acked ≤ m) (hle' : m ≤ x.sent.length) :
    Serial.advance mod8 x.acked (m % mod8) = m ∧ nrValid s (m % mod8) = true := by
  have hlt := h.reflects.inv.lt_mod8
  rw [← h.reflects.acked, ← h.reflects.sent_length] at hlt
  have hadvance : Serial.advance mod8 x.acked (m % mod8) = m :=
    Serial.advance_eq (m := mod8) (Nat.mod_lt m (by decide)) hle (by omega) rfl
  refine ⟨hadvance, (h.reflects.nrValid_iff (Nat.mod_lt m (by decide))).mpr ?_⟩
  rw [hadvance]
  exact hle'

/-- What has been heard of a frame: the peer stands further, some frames have gone out, and a retransmission
is armed or not. -/
structure Heard (st : Station) (peer : UInt8) (s s' : Ctx) (x' : Peer (List UInt8)) (fs : List Frame)
    (armed : Bool) : Prop where
  reflects : Reflects st peer 65535 s' x'
  index : s'.rxIndex = 0
  said : wires s'.trace = wires s.trace ++ fs.map (Frame.wire st.crc)
  pending : s'.retransmitPending = armed
  back : armed = true → s'.retransmitFrom = x'.acked % mod8

/-- The end of the call: what is open is repeated, if that is armed. -/
theorem Heard.retransmit {s' : Ctx} {fs : List Frame} {armed : Bool} (h : Heard st peer s s' x fs armed)
    (hup : x.link = .up) {w : TxWindow} (hw : st.txWindow = some w) (hkept : Kept w s')
    (harmed : armed = decide (x.acked ≠ x.sent.length)) :
    Attends st peer (retransmitIfPending st s') x ∧
      wires (retransmitIfPending st s').trace = wires s'.trace ++
        (numbered peer x.got.length x.acked (x.sent.drop x.acked)).map (Frame.wire st.crc) := by
  have hacked := h.reflects.acked_le
  have hindex := (@retransmitIfPending_agree st s').rxIndex
  have hsent := h.reflects.sent_exact
  have hopen := h.reflects.acked
  have hpending := h.pending
  by_cases hne : x.acked ≠ x.sent.length
  · rw [harmed, decide_eq_true hne] at hpending
    have hfrom : s'.retransmitFrom = x.acked % mod8 := h.back (by rw [harmed, decide_eq_true hne])
    have hinv := h.reflects.inv
    have hcount : x.sent.length ≤ x.acked + x.window := h.reflects.sent_le
    rw [h.reflects.window] at hcount
    rw [windowOf_eq hw] at hinv hcount
    have hend : retransmitIfPending st s' = retransmitOutstanding st w s' := by
      simp only [retransmitIfPending, hpending, hw, if_true]
    rw [hend] at hindex ⊢
    have hlength : (session s'.trace).sent.length = x.sent.length := h.reflects.sent_length.symm
    have hview := @retransmitOutstanding_linkView st w s' hinv _ hfrom (by omega) (by omega)
    have hface := congrArg LinkView.face hview
    rw [LinkView.face_sayAll] at hface
    have hquiet := @retransmitOutstanding_quiet st w s' hinv.vs_lt hinv.from_lt
    have hreflects : Reflects st peer 65535 (retransmitOutstanding st w s') x :=
      h.reflects.quiet hquiet (congrArg (fun v : Face => { v with wires := [] }) hface)
    refine ⟨⟨hreflects, hup, hindex.trans h.index, retransmitLoop_pending _ _ _ _⟩, ?_⟩
    have hdrop : (session s'.trace).sent.length - x.acked = (x.sent.drop x.acked).length := by
      rw [hlength, List.length_drop]
    have hagain : (List.range' x.acked (x.sent.drop x.acked).length).map (repeated w s') =
        numbered peer x.got.length x.acked (x.sent.drop x.acked) := by
      refine map_range'_numbered fun i hi => ?_
      rw [List.length_drop] at hi
      have hlive : x.acked + i < (session s'.trace).sent.length := by omega
      have hread := hkept (x.acked + i) hlive (by omega)
      have hvr : iCtrl (x.acked + i) s'.vr false = iCtrl (x.acked + i) x.got.length false := by
        rw [h.reflects.vr]
        simp only [iCtrl, and_seven, mod8, Nat.mod_mod]
      rw [repeated, hread, hvr, h.reflects.peerAddress, List.getElem_drop]
      simp only [hsent]
    rw [← face_wires, ← face_wires s', ← hagain, ← hdrop]
    exact congrArg Face.wires hface
  · have hall : x.acked = x.sent.length := not_not.mp hne
    rw [harmed, decide_eq_false hne] at hpending
    have hend : retransmitIfPending st s' = s' := by
      simp only [retransmitIfPending, hpending, Bool.false_eq_true, if_false]
    rw [hend, hall, List.drop_length]
    exact ⟨⟨h.reflects, hup, h.index, hpending⟩, (List.append_nil _).symm⟩

variable (hp : st.platform.Passive)
include hp

/-- A numbered frame with an N(R) from V(A) to V(S), and with room for it. -/
theorem Attends.hear (h : Attends st peer s x) {f : Frame}
    (haddr : f.address = st.config.address ∨ f.address = peer) (hfits : f.info.length + 4 ≤ st.rxCapacity)
    (hu : isUframe f.ctrl = false) {m : Nat} (hnr : ctrlNr f.ctrl = m % mod8) (hle : x.acked ≤ m)
    (hle' : m ≤ x.sent.length) {got : List (List UInt8)} {fs : List Frame}
    (hface : ((linkView s).next st s f.arriving).face =
      { face s with
        vr := got.length % mod8, got := got, wires := (face s).wires ++ fs.map (Frame.wire st.crc) }) :
    Heard st peer s (rxBytes st s (f.octets st.crc)) { x with acked := m, got := got } fs
        (arms s f.address f.ctrl) ∧
      (rxBytes st s (f.octets st.crc)).t2Active = ((linkView s).next st s f.arriving).t2Active := by
  obtain ⟨t, hread⟩ := @rxBytes_octets st s h.index f
  have haccepted : Accepted s.myAddress s.peerAddress f.address := by
    rw [h.reflects.myAddress, h.reflects.peerAddress]
    exact haddr.imp_right Or.inl
  rw [if_pos ⟨haccepted, hfits⟩] at hread
  have hquiet (u v : Ctx) : Quiet u (u.withParser v) := .of_trace rfl rfl rfl rfl rfl rfl rfl
  have hbefore : Reflects st peer 65535 (s.withParser t) x := h.reflects.quiet (hquiet s t) rfl
  obtain ⟨hadvance, hvalid⟩ := h.advance hle hle'
  have hnext : ((linkView (s.withParser t)).next st (s.withParser t) f.arriving).face = _ := hface
  have hreflects : Reflects st peer 65535 (f.arriving.dispatch st (s.withParser t))
      { x with acked := m, got := got } := by
    refine hbefore.numbered hp h.connected f.arriving hu hnr hvalid hnext h.connected rfl rfl rfl ?_
    rw [hadvance]
  have hview := dispatchFrame_ackView hp hbefore.windowed f.arriving
  have hresets : resets (s.withParser t) f.arriving.ctrl = false := by
    have hu : isUframe f.arriving.ctrl = false := hu
    simp [resets, hu]
  simp only [AckView.next, hresets, Bool.false_eq_true, if_false] at hview
  have hpending : (f.arriving.dispatch st (s.withParser t)).retransmitPending =
      (s.retransmitPending || arms s f.address f.ctrl) := congrArg AckView.retransmitPending hview
  have hfrom : (f.arriving.dispatch st (s.withParser t)).retransmitFrom =
      if arms s f.address f.ctrl then ctrlNr f.ctrl else s.retransmitFrom := congrArg AckView.retransmitFrom hview
  rw [h.pending, Bool.false_or] at hpending
  rw [hread]
  refine ⟨⟨hreflects.quiet (hquiet _ (rxRestart (f.arriving.dispatch st (s.withParser t)) .addr)) rfl, rfl, ?_,
    hpending, fun harms => ?_⟩, ?_⟩
  · have hwires := wires_dispatch hp (s.withParser t) f.arriving hnext
    rw [face_wires] at hwires
    exact hwires
  · have hfrom := hfrom
    rw [if_pos harms] at hfrom
    exact hfrom.trans hnr
  · exact congrArg LinkView.t2Active (dispatchFrame_linkView hp (s.withParser t) f.arriving)

/-- A supervisory frame with an N(R) from V(A) to V(S). -/
theorem Attends.hear_supervisory (h : Attends st peer s x) {address : UInt8} (kind : Nat) {m : Nat} (pf : Bool)
    (haddr : address = st.config.address ∨ address = peer) (hle : x.acked ≤ m) (hle' : m ≤ x.sent.length) :
    Heard st peer s (rxBytes st s (Frame.octets st.crc ⟨address, sCtrl kind m pf, []⟩)) { x with acked := m }
        (if isCmd s address && pf then [⟨st.config.address, sCtrl sRr x.got.length true, []⟩] else [])
        (arms s address (sCtrl kind m pf)) ∧
      (rxBytes st s (Frame.octets st.crc ⟨address, sCtrl kind m pf, []⟩)).t2Active =
        (!(isCmd s address && pf) && s.t2Active) := by
  obtain ⟨hs, -, hnr, hpf⟩ := sCtrl_fields kind m pf
  obtain ⟨hi, hu⟩ := isSframe_alone hs
  obtain ⟨-, hvalid⟩ := h.advance hle hle'
  have hvr : x.got.length % mod8 = s.vr := h.reflects.vr.symm
  have hvalid : nrValid s (m % 8) = true := hvalid
  have hnext : (linkView s).next st s (Frame.arriving ⟨address, sCtrl kind m pf, []⟩) =
      (((linkView s).busy st (ctrlS (sCtrl kind m pf))).poll st (isCmd s address && pf)).tell
        (opened st s (m % 8)) := by
    simp only [LinkView.next, h.connected, Frame.arriving, hu, hi, hnr, hpf, hvalid, Bool.false_eq_true,
      not_true, if_false]
  have hface : ((linkView s).next st s (Frame.arriving ⟨address, sCtrl kind m pf, []⟩)).face =
      { face s with
        vr := x.got.length % mod8, got := x.got
        wires := (face s).wires ++ (if isCmd s address && pf then
          [⟨st.config.address, sCtrl sRr x.got.length true, []⟩] else []).map (Frame.wire st.crc) } := by
    rw [hnext, LinkView.face_tell, LinkView.face_poll, LinkView.face_busy]
    by_cases hpoll : (isCmd s address && pf) = true
    · rw [if_pos hpoll, if_pos hpoll, ← sCtrl_mod sRr x.got.length, hvr, h.reflects.got, ← h.reflects.myAddress]
      rfl
    · rw [if_neg hpoll, if_neg hpoll, hvr, h.reflects.got]
      exact Face.ext rfl rfl rfl rfl rfl (List.append_nil _).symm
  have hcap : ([] : List UInt8).length + 4 ≤ st.rxCapacity := st.rxCapacity_frame
  obtain ⟨hheard, ht2⟩ := h.hear hp (f := ⟨address, sCtrl kind m pf, []⟩) haddr hcap hu hnr hle hle' hface
  refine ⟨hheard, ht2.trans ?_⟩
  have hbusy (v : LinkView) (kind : Nat) : (v.busy st kind).t2Active = v.t2Active := by
    unfold LinkView.busy
    split_ifs <;> rfl
  rw [hnext]
  cases isCmd s address && pf with
  | true => rfl
  | false => exact hbusy _ _

/-- An acknowledgement that asks for nothing. -/
theorem Attends.hear_ack (h : Attends st peer s x) {address : UInt8} {kind m : Nat}
    (haddr : address = st.config.address ∨ address = peer) (hkind : kind = sRr ∨ kind = sRnr)
    (hle : x.acked ≤ m) (hle' : m ≤ x.sent.length) :
    Attends st peer (rxBytes st s (Frame.octets st.crc ⟨address, sCtrl kind m false, []⟩)) { x with acked := m } ∧
      wires (rxBytes st s (Frame.octets st.crc ⟨address, sCtrl kind m false, []⟩)).trace = wires s.trace := by
  obtain ⟨hheard, -⟩ := h.hear_supervisory hp kind false haddr hle hle'
  obtain ⟨-, hs, -, hpf⟩ := sCtrl_fields kind m false
  have hrej : ctrlS (sCtrl kind m false) ≠ sRej := by
    rw [hs]
    rcases hkind with rfl | rfl <;> decide
  have hquiet : arms s address (sCtrl kind m false) = false := by simp [arms, hrej, hpf]
  rw [Bool.and_false, if_neg Bool.false_ne_true, hquiet] at hheard
  exact ⟨⟨hheard.reflects, h.up, hheard.index, hheard.pending⟩, hheard.said.trans (List.append_nil _)⟩

/-- An enquiry: it is answered with V(R). -/
theorem Attends.hear_poll (h : Attends st peer s x) {m : Nat} (hle : x.acked ≤ m) (hle' : m ≤ x.sent.length) :
    Attends st peer (rxBytes st s (Frame.octets st.crc (rrFrame st.config.address m)))
        { x with acked := m } ∧
      wires (rxBytes st s (Frame.octets st.crc (rrFrame st.config.address m))).trace =
        wires s.trace ++ [(rrFrame st.config.address x.got.length).wire st.crc] ∧
      (rxBytes st s (Frame.octets st.crc (rrFrame st.config.address m))).t2Active = false := by
  obtain ⟨hheard, ht2⟩ := h.hear_supervisory hp sRr true (Or.inl rfl) hle hle'
  obtain ⟨-, hs, -, -⟩ := sCtrl_fields sRr m true
  have hcmd : isCmd s st.config.address = true := by
    rw [isCmd, h.reflects.myAddress, beq_self_eq_true]
  have hrej : ctrlS (sCtrl sRr m true) ≠ sRej := by
    rw [hs]
    decide
  have hquiet : arms s st.config.address (sCtrl sRr m true) = false := by simp [arms, hrej, hcmd]
  rw [hcmd, Bool.and_true, if_pos rfl, hquiet] at hheard
  rw [hcmd] at ht2
  exact ⟨⟨hheard.reflects, h.up, hheard.index, hheard.pending⟩, hheard.said, ht2⟩

/-- The answer to an enquiry: what it leaves open is to be repeated. -/
theorem Attends.hear_final (h : Attends st peer s x) (hne : peer ≠ st.config.address) {m : Nat}
    (hle : x.acked ≤ m) (hle' : m ≤ x.sent.length) :
    Heard st peer s (rxBytes st s (Frame.octets st.crc (rrFrame peer m))) { x with acked := m } []
      (decide (m ≠ x.sent.length)) := by
  obtain ⟨hheard, -⟩ := h.hear_supervisory hp sRr true (Or.inr rfl) hle hle'
  obtain ⟨hs, -, hnr, hpf⟩ := sCtrl_fields sRr m true
  obtain ⟨-, hvalid⟩ := h.advance hle hle'
  have hcmd : isCmd s peer = false := by
    rw [isCmd, h.reflects.myAddress]
    exact beq_false_of_ne hne
  have hvalid : nrValid s (m % 8) = true := hvalid
  have hsame : m % 8 = s.vs ↔ m = x.sent.length := by
    have hlt := h.reflects.inv.lt_mod8
    rw [← h.reflects.acked, ← h.reflects.sent_length] at hlt
    rw [h.reflects.vs]
    refine ⟨fun heq => ?_, fun heq => by rw [heq]; rfl⟩
    exact Serial.eq_of_mod_eq (m := mod8) hle (by omega) h.reflects.acked_le hlt heq
  have harms : arms s peer (sCtrl sRr m true) = decide (m ≠ x.sent.length) := by
    simp [arms, h.connected, hs, hnr, hpf, hvalid, hcmd, hsame]
  rw [hcmd, Bool.false_and, if_neg Bool.false_ne_true, harms] at hheard
  exact hheard

/-- A frame that acknowledges what comes before the number `m`, and asks for nothing. -/
def Tells (my peer : UInt8) (m : Nat) (f : Frame) : Prop :=
  ∃ address kind, (address = my ∨ address = peer) ∧ (kind = sRr ∨ kind = sRnr) ∧
    f = ⟨address, sCtrl kind m false, []⟩

/-- An I-frame in sequence is acknowledged at once, or T2 runs. -/
theorem Attends.hear_data (h : Attends st peer s x) {m : Nat} (hle : x.acked ≤ m) (hle' : m ≤ x.sent.length)
    {payload : List UInt8} (hfits : payload.length + 4 ≤ st.rxCapacity) :
    let s' := rxBytes st s (Frame.octets st.crc ⟨st.config.address, iCtrl x.got.length m false, payload⟩)
    Attends st peer s' { x with acked := m, got := x.got ++ [heardInfo payload] } ∧
      ∃ ms fs, List.Forall₂ (Tells st.config.address peer) ms fs ∧
        wires s'.trace = wires s.trace ++ fs.map (Frame.wire st.crc) ∧
        (ms = [] ∧ s'.t2Active = true ∨ ms = [x.got.length + 1]) := by
  intro s'
  obtain ⟨hi, hns, hnr, hpf⟩ := iCtrl_fields x.got.length m false
  obtain ⟨hs, hu⟩ : isSframe (iCtrl x.got.length m false) = false ∧ isUframe (iCtrl x.got.length m false) = false := by
    rcases ctrl_cases (iCtrl x.got.length m false) with ⟨-, hs, hu⟩ | ⟨hi', -, -⟩ | ⟨hi', -, -⟩
    · exact ⟨hs, hu⟩
    · exact absurd (hi.symm.trans hi') (by decide)
    · exact absurd (hi.symm.trans hi') (by decide)
  obtain ⟨-, hvalid⟩ := h.advance hle hle'
  have hvalid : nrValid s (m % 8) = true := hvalid
  have hseq : x.got.length % 8 = s.vr := h.reflects.vr.symm
  set f : Frame := ⟨st.config.address, iCtrl x.got.length m false, payload⟩ with hf
  set v : LinkView := (linkView s).tell (opened st s (m % 8)) with hv
  have hnext : (linkView s).next st s f.arriving = v.receive st false (heardInfo payload) := by
    have hctrl : f.arriving.ctrl = iCtrl x.got.length m false := rfl
    have hinfo : f.arriving.info.getD [] = heardInfo payload := arriving_info f
    simp only [LinkView.next, h.connected, hctrl, hu, hi, hns, hnr, hpf, hvalid, hseq, hinfo, Bool.false_eq_true,
      not_true, if_false, if_true]
    rfl
  have hbefore : v.face.receive (heardInfo payload) =
      { face s with
        vr := (x.got ++ [heardInfo payload]).length % mod8, got := x.got ++ [heardInfo payload] } := by
    have hgot : (linkView s).got = x.got := h.reflects.got.symm
    refine Face.ext rfl rfl rfl ?_ ?_ rfl
    · rw [List.length_append, ← Nat.mod_add_mod, ← h.reflects.vr]
      rfl
    · rw [← hgot]
      rfl
  have harms : arms s f.address f.ctrl = false := by simp [arms, hf, hs]
  have hheard (fs : List Frame) (hface : ((linkView s).next st s f.arriving).face = { face s with
      vr := (x.got ++ [heardInfo payload]).length % mod8, got := x.got ++ [heardInfo payload]
      wires := (face s).wires ++ fs.map (Frame.wire st.crc) }) :=
    h.hear hp (f := f) (Or.inl rfl) hfits hu hnr hle hle' hface
  rw [harms] at hheard
  rcases LinkView.receive_cases st v (heardInfo payload) with ⟨hface, ht2⟩ | hface
  · obtain ⟨hheard, ht2'⟩ := hheard [] (by
      rw [hnext, hface, hbefore]
      exact Face.ext rfl rfl rfl rfl rfl (List.append_nil _).symm)
    refine ⟨⟨hheard.reflects, h.up, hheard.index, hheard.pending⟩, [], [], .nil, hheard.said, Or.inl ⟨rfl, ?_⟩⟩
    rw [ht2', hnext]
    exact ht2
  · obtain ⟨hheard, -⟩ := hheard [⟨st.config.address, sCtrl sRnr (x.got.length + 1) false, []⟩] (by
      rw [hnext, hface, hbefore, ← sCtrl_mod sRnr (x.got.length + 1), ← h.reflects.myAddress, List.length_append]
      rfl)
    refine ⟨⟨hheard.reflects, h.up, hheard.index, hheard.pending⟩, [x.got.length + 1], _,
      .cons ⟨st.config.address, sRnr, Or.inl rfl, Or.inr rfl, rfl⟩ .nil, hheard.said, Or.inr rfl⟩

/-- Some acknowledgements, each not below the one before. -/
theorem Attends.hear_acks (h : Attends st peer s x) {ms : List Nat} {fs : List Frame}
    (hfs : List.Forall₂ (Tells peer st.config.address) ms fs) (hsorted : (x.acked :: ms).Pairwise (· ≤ ·))
    (hle : ∀ m ∈ ms, m ≤ x.sent.length) :
    Attends st peer (rxBytes st s (fs.flatMap (Frame.octets st.crc))) { x with acked := ms.getLastD x.acked } ∧
      wires (rxBytes st s (fs.flatMap (Frame.octets st.crc))).trace = wires s.trace := by
  induction hfs generalizing s x with
  | nil => exact ⟨h, rfl⟩
  | @cons m f ms fs hm _ ih =>
      obtain ⟨address, kind, haddr, hkind, rfl⟩ := hm
      obtain ⟨hfirst, hrest⟩ := List.pairwise_cons.mp hsorted
      obtain ⟨hone, hwires⟩ := h.hear_ack hp haddr.symm hkind (hfirst m List.mem_cons_self) (hle m List.mem_cons_self)
      obtain ⟨hall, hwires'⟩ := ih hone hrest fun m hm => hle m (List.mem_cons_of_mem _ hm)
      rw [List.flatMap_cons, rxBytes, List.foldl_append, List.getLastD_cons]
      exact ⟨hall, hwires'.trans hwires⟩

/-- Some I-frames in sequence. -/
theorem Attends.hear_numbered (h : Attends st peer s x) {payloads : List (List UInt8)}
    (hfits : ∀ payload ∈ payloads, payload.length + 4 ≤ st.rxCapacity) {a : Nat} {ms : List Nat}
    (howes : Owes a x.got.length ms s.t2Active) :
    let s' := rxBytes st s ((numbered st.config.address x.acked x.got.length payloads).flatMap (Frame.octets st.crc))
    Attends st peer s' { x with got := x.got ++ payloads.map heardInfo } ∧
      ∃ ms' fs, List.Forall₂ (Tells st.config.address peer) ms' fs ∧
        wires s'.trace = wires s.trace ++ fs.map (Frame.wire st.crc) ∧
        Owes a (x.got.length + payloads.length) (ms ++ ms') s'.t2Active := by
  induction payloads generalizing s x ms with
  | nil =>
      refine ⟨?_, [], [], .nil, (List.append_nil _).symm, ?_⟩
      · rw [List.map_nil, List.append_nil]
        exact h
      · rw [List.append_nil]
        exact howes
  | cons payload payloads ih =>
      obtain ⟨hone, ms₁, fs₁, hfs₁, hwires₁, hms₁⟩ :=
        h.hear_data hp (Nat.le_refl x.acked) h.reflects.acked_le (hfits payload List.mem_cons_self)
      have howes₁ := howes.receive hms₁
      have hcount : x.got.length + 1 = (x.got ++ [heardInfo payload]).length := by
        rw [List.length_append, List.length_singleton]
      rw [hcount] at howes₁
      obtain ⟨hall, ms₂, fs₂, hfs₂, hwires₂, howes₂⟩ :=
        ih hone (fun p hmem => hfits p (List.mem_cons_of_mem _ hmem)) howes₁
      have hread : (numbered st.config.address x.acked x.got.length (payload :: payloads)).flatMap
          (Frame.octets st.crc) =
          Frame.octets st.crc ⟨st.config.address, iCtrl x.got.length x.acked false, payload⟩ ++
            (numbered st.config.address x.acked (x.got ++ [heardInfo payload]).length payloads).flatMap
              (Frame.octets st.crc) := by
        rw [← hcount]
        rfl
      rw [hread, rxBytes, List.foldl_append]
      refine ⟨?_, ms₁ ++ ms₂, fs₁ ++ fs₂, List.rel_append hfs₁ hfs₂, ?_, ?_⟩
      · have hgot : x.got ++ (payload :: payloads).map heardInfo =
            x.got ++ [heardInfo payload] ++ payloads.map heardInfo := List.append_cons _ _ _
        rw [hgot]
        exact hall
      · rw [List.map_append, ← List.append_assoc, ← hwires₁]
        exact hwires₂
      · rw [← List.append_assoc, List.length_cons, Nat.add_comm payloads.length, ← Nat.add_assoc, hcount]
        exact howes₂

end Attends

/-! ### The two stations of a repair -/

/-- Two stations of which the near one waits for acknowledgements: it has sent the frames `front`, and the
far one some acknowledgements with the numbers `ms`, and then the frames `back`. -/
structure Mending (w : World) (x y : Peer (List UInt8)) (ms : List Nat) (t2Active : Bool)
    (front back : List Frame) : Prop where
  near : Attends w.near.station w.far.station.config.address w.near.ctx x
  far : Attends w.far.station w.near.station.config.address w.far.ctx y
  asks : w.near.out.map Flight.wire = front.map (Frame.wire w.near.station.crc)
  tells : ∃ fs, List.Forall₂ (Tells w.far.station.config.address w.near.station.config.address) ms fs ∧
    w.far.out.map Flight.wire = (fs ++ back).map (Frame.wire w.far.station.crc)
  owes : Owes x.acked y.got.length ms t2Active
  got_le : y.got.length ≤ x.sent.length
  fits : ∀ payload ∈ x.sent.drop x.acked, payload.length + 4 ≤ w.far.station.rxCapacity

theorem swap_step_stations (w : World) (m : Move) :
    (w.swap.step m).swap.near.station = w.near.station ∧ (w.swap.step m).swap.far.station = w.far.station :=
  (step_stations w.swap m).symm

section Mending

variable {w : World} {x y : Peer (List UInt8)} {ms : List Nat} {t2Active : Bool} {front back : List Frame}

theorem Mending.acked_le (h : Mending w x y ms t2Active front back) : x.acked ≤ y.got.length :=
  h.owes.le _ List.mem_cons_self

theorem drop_subset {l : List (List UInt8)} {a b : Nat} (hle : a ≤ b) : l.drop b ⊆ l.drop a := by
  have hsplit : l.drop b = (l.drop a).drop (b - a) := by
    rw [List.drop_drop, Nat.add_sub_of_le hle]
  rw [hsplit]
  exact List.drop_subset _ _

/-- The near station hears some of the acknowledgements, and nothing else. -/
theorem Mending.hear_acks (hmatched : Matched w) (h : Mending w x y ms t2Active front back) {n : Nat}
    (hn : n ≤ ms.length ∨ back = []) :
    Mending (w.step (.deliver n)) { x with acked := (ms.take n).getLastD x.acked } y (ms.drop n) t2Active
      front back := by
  obtain ⟨fs, hfs, hout⟩ := h.tells
  have htake : (fs ++ back).take n = fs.take n ∧ (fs ++ back).drop n = fs.drop n ++ back := by
    rcases hn with hn | rfl
    · rw [hfs.length_eq] at hn
      exact ⟨List.take_append_of_le_length hn, List.drop_append_of_le_length hn⟩
    · rw [List.append_nil, List.append_nil]
      exact ⟨rfl, rfl⟩
  have howes := h.owes
  rw [← List.take_append_drop n ms] at howes
  obtain ⟨hsorted, hle, hrest⟩ := howes.hear
  have hacks := h.near.hear_acks hmatched.nearPassive (List.forall₂_take n hfs) hsorted fun m hm =>
    (h.owes.le m (List.mem_cons_of_mem _ (List.mem_of_mem_take hm))).trans h.got_le
  obtain ⟨hheard, hwires⟩ := hacks
  have hoctets := take_octets hout n
  rw [htake.1, ← hmatched.crc] at hoctets
  have hread : dataIn w.near.station w.near.ctx ((w.far.out.take n).flatMap fun f => f.wire.octets) =
      rxBytes w.near.station w.near.ctx ((fs.take n).flatMap (Frame.octets w.near.station.crc)) := by
    rw [dataIn, hoctets, retransmitIfPending, hheard.pending, if_neg Bool.false_ne_true]
  have hctx : (w.step (.deliver n)).near.ctx = _ := (receive_eq w.near (w.far.out.take n)).1.trans hread
  obtain ⟨hnear, hfar⟩ := step_stations w (.deliver n)
  refine ⟨?_, ?_, ?_, ⟨fs.drop n, ?_, ?_⟩, hrest, h.got_le, ?_⟩
  · rw [hnear, hfar, hctx]
    exact hheard
  · rw [hnear]
    exact h.far
  · have hsilent : wires (dataIn w.near.station w.near.ctx
        ((w.far.out.take n).flatMap fun f => f.wire.octets)).trace = wires w.near.ctx.trace ++ [] := by
      rw [hread, hwires, List.append_nil]
    rw [hnear, ← h.asks]
    exact (receive_wires hsilent).trans (List.append_nil _)
  · rw [hnear]
    exact List.forall₂_drop n hfs
  · exact (drop_wires hout n).trans (by rw [htake.2]; rfl)
  · exact fun payload hmem => h.fits payload (drop_subset hle hmem)

/-- The near station hears the answer to its enquiry, and repeats what is open. -/
theorem Mending.hear_answer (hmatched : Matched w)
    (hne : w.far.station.config.address ≠ w.near.station.config.address)
    (hkept : Kept (windowOf w.near.station) w.near.ctx)
    (h : Mending w x y ms t2Active [] [rrFrame w.far.station.config.address y.got.length]) {n : Nat}
    (hn : ms.length < n) :
    Mending (w.step (.deliver n)) { x with acked := y.got.length } y [] w.far.ctx.t2Active
      (numbered w.far.station.config.address x.got.length y.got.length (x.sent.drop y.got.length)) [] := by
  obtain ⟨tw, htw⟩ := Option.isSome_iff_exists.mp hmatched.nearWindow
  obtain ⟨fs, hfs, hout⟩ := h.tells
  have hall : n ≥ (fs ++ [rrFrame w.far.station.config.address y.got.length]).length := by
    rw [List.length_append, ← hfs.length_eq]
    exact hn
  have howes := h.owes
  rw [← List.append_nil ms] at howes
  obtain ⟨hsorted, hle, hrest⟩ := howes.hear
  obtain ⟨hacks, hwires⟩ := h.near.hear_acks hmatched.nearPassive hfs hsorted fun m hm =>
    (h.owes.le m (List.mem_cons_of_mem _ hm)).trans h.got_le
  have hfinal := hacks.hear_final hmatched.nearPassive hne (hrest.le _ List.mem_cons_self) h.got_le
  have hoctets := take_octets hout n
  rw [List.take_of_length_le hall, ← hmatched.crc, List.flatMap_append, List.flatMap_singleton] at hoctets
  have hread : dataIn w.near.station w.near.ctx ((w.far.out.take n).flatMap fun f => f.wire.octets) =
      retransmitIfPending w.near.station (rxBytes w.near.station
        (rxBytes w.near.station w.near.ctx (fs.flatMap (Frame.octets w.near.station.crc)))
        (Frame.octets w.near.station.crc (rrFrame w.far.station.config.address y.got.length))) := by
    rw [dataIn, hoctets, rxBytes, List.foldl_append]
    rfl
  rw [windowOf_eq htw] at hkept
  have hkept' := (hkept.rxBytes hmatched.nearPassive (fs.flatMap (Frame.octets w.near.station.crc))).rxBytes
    hmatched.nearPassive
    (Frame.octets w.near.station.crc (rrFrame w.far.station.config.address y.got.length))
  obtain ⟨hattends, hsaid⟩ := hfinal.retransmit h.near.up htw hkept' rfl
  have hfull : wires (dataIn w.near.station w.near.ctx
      ((w.far.out.take n).flatMap fun f => f.wire.octets)).trace = wires w.near.ctx.trace ++
        (numbered w.far.station.config.address x.got.length y.got.length (x.sent.drop y.got.length)).map
          (Frame.wire w.near.station.crc) := by
    rw [hread, hsaid, hfinal.said, hwires, List.map_nil, List.append_nil]
  have hctx : (w.step (.deliver n)).near.ctx = _ := (receive_eq w.near (w.far.out.take n)).1.trans hread
  obtain ⟨hnear, hfar⟩ := step_stations w (.deliver n)
  refine ⟨?_, ?_, ?_, ⟨[], .nil, ?_⟩, ⟨?_, ?_, Or.inr rfl⟩, h.got_le, ?_⟩
  · rw [hnear, hfar, hctx]
    exact hattends
  · rw [hnear]
    exact h.far
  · have hnone : w.near.out.map Flight.wire = [] := h.asks
    rw [hnear]
    refine (receive_wires hfull).trans ?_
    rw [hnone, List.nil_append]
  · exact (drop_wires hout n).trans (by rw [List.drop_eq_nil_of_le hall]; rfl)
  · exact List.pairwise_singleton _ _
  · exact fun m hm => (List.mem_singleton.mp hm).le
  · exact fun payload hmem => h.fits payload (drop_subset h.acked_le hmem)

/-- The far station hears the enquiry, and answers it. -/
theorem Mending.hear_enquiry (hmatched : Matched w)
    (h : Mending w x y ms t2Active [rrFrame w.far.station.config.address x.got.length] [])
    (hle : y.acked ≤ x.got.length) (hle' : x.got.length ≤ y.sent.length) {n : Nat} (hn : 0 < n) :
    Mending (w.swap.step (.deliver n)).swap x { y with acked := x.got.length } ms t2Active []
        [rrFrame w.far.station.config.address y.got.length] ∧
      (w.swap.step (.deliver n)).swap.far.ctx.t2Active = false := by
  obtain ⟨fs, hfs, hout⟩ := h.tells
  obtain ⟨hattends, hwires, ht2⟩ := h.far.hear_poll hmatched.farPassive hle hle'
  have hall : n ≥ [rrFrame w.far.station.config.address x.got.length].length := hn
  have hoctets := take_octets h.asks n
  rw [List.take_of_length_le hall, hmatched.crc, List.flatMap_singleton] at hoctets
  have hread : dataIn w.far.station w.far.ctx ((w.near.out.take n).flatMap fun f => f.wire.octets) =
      rxBytes w.far.station w.far.ctx
        (Frame.octets w.far.station.crc (rrFrame w.far.station.config.address x.got.length)) := by
    rw [dataIn, hoctets, retransmitIfPending, hattends.pending, if_neg Bool.false_ne_true]
  have hctx : (w.swap.step (.deliver n)).swap.far.ctx = _ :=
    (receive_eq w.far (w.near.out.take n)).1.trans hread
  obtain ⟨hnear, hfar⟩ := swap_step_stations w (.deliver n)
  refine ⟨⟨?_, ?_, ?_, ⟨fs, ?_, ?_⟩, h.owes, h.got_le, ?_⟩, ?_⟩
  · rw [hfar]
    exact h.near
  · rw [hnear, hfar, hctx]
    exact hattends
  · exact (drop_wires h.asks n).trans (by rw [List.drop_eq_nil_of_le hall]; rfl)
  · rw [hnear, hfar]
    exact hfs
  · rw [hfar, List.map_append, ← List.append_nil fs, ← hout]
    exact receive_wires (hread ▸ hwires)
  · rw [hfar]
    exact h.fits
  · rw [hctx]
    exact ht2

/-- The far station hears some of the frames that are repeated. -/
theorem Mending.hear_numbered (hmatched : Matched w)
    (h : Mending w x y ms w.far.ctx.t2Active
      (numbered w.far.station.config.address x.got.length y.got.length (x.sent.drop y.got.length)) [])
    (hknown : y.acked = x.got.length) (n : Nat) :
    ∃ y' ms', Mending (w.swap.step (.deliver n)).swap x y' ms' (w.swap.step (.deliver n)).swap.far.ctx.t2Active
        (numbered w.far.station.config.address x.got.length y'.got.length (x.sent.drop y'.got.length)) [] ∧
      y'.acked = x.got.length := by
  obtain ⟨fs, hfs, hout⟩ := h.tells
  have hfits : ∀ payload ∈ (x.sent.drop y.got.length).take n, payload.length + 4 ≤ w.far.station.rxCapacity :=
    fun payload hmem => h.fits payload (drop_subset h.acked_le (List.mem_of_mem_take hmem))
  obtain ⟨hattends, ms', fs', hfs', hwires, howes⟩ :=
    h.far.hear_numbered hmatched.farPassive hfits h.owes
  rw [hknown] at hattends hwires howes
  have hoctets := take_octets h.asks n
  rw [numbered_take, hmatched.crc] at hoctets
  have hread : dataIn w.far.station w.far.ctx ((w.near.out.take n).flatMap fun f => f.wire.octets) =
      rxBytes w.far.station w.far.ctx ((numbered w.far.station.config.address x.got.length y.got.length
        ((x.sent.drop y.got.length).take n)).flatMap (Frame.octets w.far.station.crc)) := by
    rw [dataIn, hoctets, retransmitIfPending, hattends.pending, if_neg Bool.false_ne_true]
  have hctx : (w.swap.step (.deliver n)).swap.far.ctx = _ :=
    (receive_eq w.far (w.near.out.take n)).1.trans hread
  obtain ⟨hnear, hfar⟩ := swap_step_stations w (.deliver n)
  have hgot : (y.got ++ ((x.sent.drop y.got.length).take n).map heardInfo).length =
      y.got.length + ((x.sent.drop y.got.length).take n).length := by
    rw [List.length_append, List.length_map]
  have hle := h.got_le
  refine ⟨{ y with
    acked := x.got.length, got := y.got ++ ((x.sent.drop y.got.length).take n).map heardInfo }, ms ++ ms',
    ⟨?_, ?_, ?_, ⟨fs ++ fs', ?_, ?_⟩, ?_, ?_, ?_⟩, rfl⟩
  · rw [hfar]
    exact h.near
  · rw [hnear, hfar, hctx]
    exact hattends
  · rw [hnear]
    refine (drop_wires h.asks n).trans (congrArg (List.map _) ?_)
    simp only [hgot]
    rw [numbered_drop, List.drop_drop]
  · rw [hnear, hfar]
    exact List.rel_append hfs hfs'
  · have hout : w.far.out.map Flight.wire = fs.map (Frame.wire w.far.station.crc) := by
      rw [hout, List.append_nil]
    rw [hfar, List.append_nil, List.map_append, ← hout]
    exact receive_wires (hread ▸ hwires)
  · simp only [hgot]
    rw [hctx]
    exact howes
  · simp only [hgot]
    rw [List.length_take, List.length_drop]
    omega
  · rw [hfar]
    exact h.fits

/-- T2 expires at the far station: it acknowledges all that it has received. -/
theorem Mending.t2Expired (h : Mending w x y ms t2Active front []) (t2Active' : Bool) :
    Mending (w.swap.step (.call .t2Expired)).swap x y (ms ++ [y.got.length]) t2Active' front [] := by
  obtain ⟨fs, hfs, hout⟩ := h.tells
  obtain ⟨address, kind, haddr, hkind, hl⟩ := @t2Expired_leaves w.far.station w.far.ctx
  have hctx : (w.swap.step (.call .t2Expired)).swap.far.ctx = AtcHdlc.t2Expired w.far.station w.far.ctx :=
    (become_eq w.far _).1
  obtain ⟨hnear, hfar⟩ := swap_step_stations w (.call .t2Expired)
  rw [h.far.reflects.myAddress, h.far.reflects.peerAddress] at haddr
  refine ⟨?_, ⟨?_, h.far.up, ?_, ?_⟩, ?_, ⟨fs ++ [⟨address, sCtrl kind y.got.length false, []⟩], ?_, ?_⟩,
    h.owes.tell (Nat.le_refl _), h.got_le, ?_⟩
  · rw [hfar]
    exact h.near
  · rw [hnear, hfar, hctx]
    refine h.far.reflects.leaves hl ?_
    rw [← h.far.reflects.link]
  · rw [hctx]
    exact hl.index.trans h.far.index
  · rw [hctx]
    exact hl.pending.trans h.far.pending
  · rw [hnear]
    exact h.asks
  · rw [hnear, hfar]
    exact List.rel_append hfs (.cons ⟨address, kind, haddr, hkind, rfl⟩ .nil)
  · have hsaid := become_wires (e := w.far) hl.wires
    have hvr : sCtrl kind w.far.ctx.vr false = sCtrl kind y.got.length false := by
      rw [h.far.reflects.vr, sCtrl_mod]
    rw [hvr, hout] at hsaid
    rw [hfar, List.append_nil]
    refine hsaid.trans ?_
    rw [List.append_nil, List.map_append]
  · rw [hfar]
    exact h.fits

end Mending

/-- The enquiry is on its way. -/
def Asking (sent : List (List UInt8)) (w : World) : Prop :=
  ∃ x y ms, Mending w x y ms true [rrFrame w.far.station.config.address x.got.length] [] ∧ x.sent = sent ∧
    y.acked ≤ x.got.length ∧ x.got.length ≤ y.sent.length

/-- The answer is on its way. -/
def Answering (sent : List (List UInt8)) (w : World) : Prop :=
  ∃ x y ms, Mending w x y ms true [] [rrFrame w.far.station.config.address y.got.length] ∧ x.sent = sent ∧
    y.acked = x.got.length ∧ w.far.ctx.t2Active = false

/-- What is open has been repeated. -/
def Resending (sent : List (List UInt8)) (w : World) : Prop :=
  ∃ x y ms, Mending w x y ms w.far.ctx.t2Active
      (numbered w.far.station.config.address x.got.length y.got.length (x.sent.drop y.got.length)) [] ∧
    x.sent = sent ∧ y.acked = x.got.length

/-- The stations of a repair. -/
structure Mendable (w : World) : Prop where
  matched : Matched w
  distinct : w.far.station.config.address ≠ w.near.station.config.address
  kept : Kept (windowOf w.near.station) w.near.ctx

section Phases

variable {sent : List (List UInt8)} {w : World}

theorem deliver_nothing {peer : UInt8} {x : Peer (List UInt8)} (h : Attends w.near.station peer w.near.ctx x)
    {n : Nat} (hnone : w.far.out.take n = []) : w.step (.deliver n) = w := by
  have hread : dataIn w.near.station w.near.ctx [] = w.near.ctx := by
    rw [dataIn, rxBytes, List.foldl_nil, retransmitIfPending, h.pending, if_neg Bool.false_ne_true]
  have hnear : w.near.receive [] = w.near := by
    rw [Endpoint.receive, List.foldl_nil, List.flatMap_nil, hread, Endpoint.become, List.drop_length,
      List.foldl_nil]
  have hfar : w.far.out.drop n = w.far.out := by
    rw [← List.nil_append (w.far.out.drop n), ← hnone, List.take_append_drop]
  rw [World.step, hnone, hnear, hfar]

theorem Asking.near (hw : Mendable w) (h : Asking sent w) (n : Nat) : Asking sent (w.step (.deliver n)) := by
  obtain ⟨x, y, ms, hm, hsent, hle, hle'⟩ := h
  exact ⟨_, y, _, hm.hear_acks hw.matched (Or.inr rfl), hsent, hle, hle'⟩

theorem Asking.far (hw : Mendable w) (h : Asking sent w) (n : Nat) :
    Asking sent (w.swap.step (.deliver n)).swap ∨ Answering sent (w.swap.step (.deliver n)).swap := by
  obtain ⟨x, y, ms, hm, hsent, hle, hle'⟩ := h
  rcases Nat.eq_zero_or_pos n with rfl | hn
  · rw [deliver_nothing (w := w.swap) hm.far (List.take_zero)]
    exact Or.inl ⟨x, y, ms, hm, hsent, hle, hle'⟩
  · obtain ⟨hm', ht2⟩ := hm.hear_enquiry hw.matched hle hle' hn
    rw [← (swap_step_stations w (.deliver n)).2] at hm'
    exact Or.inr ⟨x, _, ms, hm', hsent, rfl, ht2⟩

theorem Asking.t2Expired (h : Asking sent w) : Asking sent (w.swap.step (.call .t2Expired)).swap := by
  obtain ⟨x, y, ms, hm, hsent, hle, hle'⟩ := h
  have hm' := hm.t2Expired true
  rw [← (swap_step_stations w (.call .t2Expired)).2] at hm'
  exact ⟨x, y, _, hm', hsent, hle, hle'⟩

theorem Answering.near (hw : Mendable w) (h : Answering sent w) (n : Nat) :
    Answering sent (w.step (.deliver n)) ∨ Resending sent (w.step (.deliver n)) := by
  obtain ⟨x, y, ms, hm, hsent, hknown, ht2⟩ := h
  rcases Nat.lt_or_ge ms.length n with hlt | hge
  · exact Or.inr ⟨_, y, _, hm.hear_answer hw.matched hw.distinct hw.kept hlt, hsent, hknown⟩
  · exact Or.inl ⟨_, y, _, hm.hear_acks hw.matched (Or.inl hge), hsent, hknown, ht2⟩

theorem Answering.far (h : Answering sent w) (n : Nat) : Answering sent (w.swap.step (.deliver n)).swap := by
  obtain ⟨x, y, ms, hm, hsent, hknown, ht2⟩ := h
  have hnone : w.swap.far.out.take n = [] := by
    have hout : w.near.out = [] := List.map_eq_nil_iff.mp hm.asks
    exact (congrArg (List.take n) hout).trans List.take_nil
  rw [deliver_nothing hm.far hnone]
  exact ⟨x, y, ms, hm, hsent, hknown, ht2⟩

/-- The near station only hears acknowledgements from now on, and its channel is left as it is. -/
theorem Resending.near (hw : Mendable w) (h : Resending sent w) (n : Nat) :
    Resending sent (w.step (.deliver n)) ∧ (w.near.out = [] → (w.step (.deliver n)).near.out = []) := by
  obtain ⟨x, y, ms, hm, hsent, hknown⟩ := h
  have hm' := hm.hear_acks (n := n) hw.matched (Or.inr rfl)
  refine ⟨⟨_, y, _, hm', hsent, hknown⟩, fun hnone => ?_⟩
  have hfront := hm.asks
  rw [hnone] at hfront
  have hempty := List.map_eq_nil_iff.mp hfront.symm
  have hasks := hm'.asks
  rw [hempty] at hasks
  exact List.map_eq_nil_iff.mp hasks

theorem Resending.far (hw : Mendable w) (h : Resending sent w) (n : Nat) :
    Resending sent (w.swap.step (.deliver n)).swap := by
  obtain ⟨x, y, ms, hm, hsent, hknown⟩ := h
  obtain ⟨y', ms', hm', hknown'⟩ := hm.hear_numbered hw.matched hknown n
  rw [← (swap_step_stations w (.deliver n)).2] at hm'
  exact ⟨x, y', ms', hm', hsent, hknown'⟩

theorem Resending.t2Expired (h : Resending sent w) : Resending sent (w.swap.step (.call .t2Expired)).swap := by
  obtain ⟨x, y, ms, hm, hsent, hknown⟩ := h
  have hm' := hm.t2Expired (w.swap.step (.call .t2Expired)).swap.far.ctx.t2Active
  rw [← (swap_step_stations w (.call .t2Expired)).2] at hm'
  exact ⟨x, y, _, hm', hsent, hknown⟩

end Phases

/-! ### The repair -/

/-- What follows an enquiry where nothing is lost: each station reads any number of the frames that are on
their way to it, and T2 may expire at the far station when it runs there. -/
inductive Repairs (w : World) : World → Prop where
  | start : Repairs w w
  | near {v : World} (n : Nat) (h : Repairs w v) : Repairs w (v.step (.deliver n))
  | far {v : World} (n : Nat) (h : Repairs w v) : Repairs w (v.swap.step (.deliver n)).swap
  | t2Expired {v : World} (h : Repairs w v) (ht2 : v.far.ctx.t2Active = true) :
      Repairs w (v.swap.step (.call .t2Expired)).swap

/-- Nothing is on its way, and T2 does not run at the far station. -/
structure AtRest (w : World) : Prop where
  near : w.near.out = []
  far : w.far.out = []
  t2Active : w.far.ctx.t2Active = false

/-- A phase of a repair. -/
def Phase (sent : List (List UInt8)) (w : World) : Prop := Asking sent w ∨ Answering sent w ∨ Resending sent w

section Repair

variable {sent : List (List UInt8)} {w v : World}

theorem Phase.near (hw : Mendable w) (h : Phase sent w) (n : Nat) : Phase sent (w.step (.deliver n)) := by
  rcases h with h | h | h
  · exact Or.inl (h.near hw n)
  · exact Or.inr (h.near hw n)
  · exact Or.inr (Or.inr (h.near hw n).1)

theorem Phase.far (hw : Mendable w) (h : Phase sent w) (n : Nat) : Phase sent (w.swap.step (.deliver n)).swap := by
  rcases h with h | h | h
  · exact (h.far hw n).imp_right Or.inl
  · exact Or.inr (Or.inl (h.far n))
  · exact Or.inr (Or.inr (h.far hw n))

theorem Phase.t2Expired (h : Phase sent w) (ht2 : w.far.ctx.t2Active = true) :
    Phase sent (w.swap.step (.call .t2Expired)).swap := by
  rcases h with h | ⟨x, y, ms, -, -, -, hstopped⟩ | h
  · exact Or.inl h.t2Expired
  · exact absurd (hstopped.symm.trans ht2) (by decide)
  · exact Or.inr (Or.inr h.t2Expired)

/-- At rest all is acknowledged, and all has been received. -/
theorem Phase.atRest (h : Phase sent w) (hrest : AtRest w) :
    w.near.ctx.va = w.near.ctx.vs ∧ w.near.ctx.vs = w.far.ctx.vr ∧ (session w.near.ctx.trace).sent = sent ∧
      (received w.far.ctx.trace).length = sent.length := by
  rcases h with ⟨x, y, ms, hm, -⟩ | ⟨x, y, ms, hm, -⟩ | ⟨x, y, ms, hm, rfl, -⟩
  · have hasks := hm.asks
    rw [hrest.near] at hasks
    exact absurd (List.map_eq_nil_iff.mp hasks.symm) (by simp)
  · obtain ⟨fs, -, htells⟩ := hm.tells
    rw [hrest.far] at htells
    exact absurd (List.map_eq_nil_iff.mp htells.symm) (by simp)
  · obtain ⟨fs, hfs, htells⟩ := hm.tells
    rw [hrest.far, List.append_nil] at htells
    obtain rfl : fs = [] := List.map_eq_nil_iff.mp htells.symm
    obtain rfl : ms = [] := List.length_eq_zero_iff.mp hfs.length_eq
    have hknown : x.acked = y.got.length := by
      rcases hm.owes.covered with ht2 | hlast
      · exact absurd (hrest.t2Active.symm.trans ht2) (by decide)
      · exact hlast
    have hasks := hm.asks
    rw [hrest.near] at hasks
    have hall : y.got.length = x.sent.length := by
      have hempty : x.sent.drop y.got.length = [] := by
        cases hdrop : x.sent.drop y.got.length with
        | nil => rfl
        | cons payload payloads =>
            rw [hdrop, numbered] at hasks
            exact absurd (List.map_eq_nil_iff.mp hasks.symm) (by simp)
      exact Nat.le_antisymm hm.got_le (List.drop_eq_nil_iff.mp hempty)
    have hva := hm.near.reflects.va
    have hvs := hm.near.reflects.vs
    rw [hknown, hall] at hva
    refine ⟨hva.trans hvs.symm, hvs.trans ?_, hm.near.reflects.sent_exact.symm, ?_⟩
    · rw [← hall]
      exact hm.far.reflects.vr.symm
    · rw [← hall, hm.far.reflects.got]

/-- A repair belongs to the run that it follows. -/
theorem Repairs.run {bound : Nat} {w₀ : World} (h : Repairs w v)
    (hrun : Run (fun w m => Transfers bound w m ∧ Protects w m) w₀ w) :
    Run (fun w m => Transfers bound w m ∧ Protects w m) w₀ v := by
  induction h with
  | start => exact hrun
  | near n _ ih => exact .near _ ih ⟨trivial, trivial⟩
  | far n _ ih => exact .far _ ih ⟨trivial, trivial⟩
  | t2Expired _ _ ih => exact .far _ ih ⟨trivial, trivial⟩

theorem Run.mendable {bound : Nat} {w₀ : World} (hstart : Paired w₀)
    (hrun : Run (fun w m => Transfers bound w m ∧ Protects w m) w₀ w) : Mendable w := by
  obtain ⟨hmatched, n, hn⟩ := hrun.inSession hstart
  obtain ⟨hnear, hfar⟩ := hrun.stations
  refine ⟨hmatched, ?_, hn.nearHolds.kept⟩
  rw [hnear, hfar]
  exact hstart.established.distinct.symm

/-- The near station sends its enquiry. -/
theorem Run.asking {w₀ : World} (hstart : Paired w₀)
    (hrun : Run (fun w m => Transfers 65535 w m ∧ Protects w m) w₀ w) (hnear : w.near.out = [])
    (hfar : w.far.out = []) (hopen : w.near.ctx.va ≠ w.near.ctx.vs) (hbusy : w.near.ctx.localBusy = false)
    (hkept : ¬Exhausted w.near.station (counted w.near.ctx))
    (hfits : ∀ payload ∈ (session w.near.ctx.trace).sent.drop (session w.near.ctx.trace).acked,
      payload.length + 4 ≤ w.far.station.rxCapacity) :
    Asking (session w.near.ctx.trace).sent w.polled := by
  obtain ⟨-, n, hn⟩ := hrun.inSession hstart
  obtain ⟨-, n', hn'⟩ : Matched w.polled ∧ ∃ n', InSession sessionRules 65535 w₀ w.polled n' :=
    (hrun.near (.call .t1Expired) ⟨hkept, trivial⟩).inSession hstart
  have hstate := (hn.near.attends hn.talking.near).connected
  have hrepeats : Repeats w.near.station (enquiry w.near.ctx) w.near.ctx :=
    t1Expired_repeats (Or.inr (Or.inr (Or.inr ⟨hstate, hopen⟩))) hkept
  have henquiry : enquiry w.near.ctx = rrFrame w.far.station.config.address w.near.ctx.vr := by
    simp only [enquiry, hstate, hbusy, Bool.false_eq_true, if_false, hn.near.reflects.peerAddress, rrFrame]
  have hleaves := hrepeats.leaves
  have hctx : w.polled.near.ctx = t1Expired w.near.station w.near.ctx := (become_eq w.near _).1
  have hstation : w.polled.near.station = w.near.station := (step_stations w (.call .t1Expired)).1
  have hvr : w.near.ctx.vr = n'.near.got.length % mod8 := by
    rw [← hn'.near.reflects.vr, hctx]
    exact (congrArg Face.vr hleaves.face).symm
  have hsession : session w.polled.near.ctx.trace = session w.near.ctx.trace := by
    obtain ⟨os, hos, htrace⟩ := hleaves.quiet.trace
    rw [hctx, htrace, session_neutral _ hos]
  have hsent : n'.near.sent = (session w.near.ctx.trace).sent := by
    rw [← hsession]
    exact hn'.near.reflects.sent_exact
  have hflow := hn'.inv.near.flow hn'.talking.near hn'.talking.far
  have hflow' := hn'.inv.far.flow hn'.talking.far hn'.talking.near
  refine ⟨n'.near, n'.far, [], ⟨hn'.near.attends hn'.talking.near, hn'.far.attends hn'.talking.far, ?_,
    ⟨[], .nil, ?_⟩, ⟨List.pairwise_singleton _ _, ?_, Or.inl rfl⟩, hflow.got_le, ?_⟩, hsent, hflow'.acked_le,
    hflow'.got_le⟩
  · have hrr : rrFrame w.far.station.config.address w.near.ctx.vr =
        rrFrame w.far.station.config.address n'.near.got.length := by
      rw [hvr, rrFrame, sCtrl_mod, rrFrame]
    have hsaid : w.polled.near.out.map Flight.wire = _ := become_wires (e := w.near) hleaves.wires
    rw [henquiry, hrr, hnear, List.map_nil, List.nil_append] at hsaid
    rw [hstation]
    exact hsaid
  · exact List.map_eq_nil_iff.mpr hfar
  · exact fun m hm => (List.mem_singleton.mp hm).le.trans hflow.acked_le
  · rw [hsent, hn'.near.reflects.acked, hsession]
    exact hfits

theorem Repairs.phase {w₀ : World} (hstart : Paired w₀)
    (hrun : Run (fun w m => Transfers 65535 w m ∧ Protects w m) w₀ w) (h : Phase sent w) (hv : Repairs w v) :
    Phase sent v := by
  induction hv with
  | start => exact h
  | near n hv ih => exact ih.near ((hv.run hrun).mendable hstart) n
  | far n hv ih => exact ih.far ((hv.run hrun).mendable hstart) n
  | t2Expired _ ht2 ih => exact ih.t2Expired ht2

theorem swap_deliver_near (w : World) : (w.swap.step (.deliver w.near.out.length)).swap.near.out = [] :=
  List.drop_length

theorem deliver_far (w : World) : (w.step (.deliver w.far.out.length)).far.out = [] := List.drop_length

theorem t2Expired_t2Active (st : Station) (s : Ctx) : (t2Expired st s).t2Active = false := by
  simp only [t2Expired, sendRr, sendRnr, sendS_eq]
  split_ifs <;> rfl

/-- What has been repeated is read, and then the acknowledgements; at last T2 may expire. -/
theorem Resending.completes (hw : ∀ u, Repairs w u → Mendable u) (hv : Repairs w v) (h : Resending sent v) :
    ∃ u, Repairs w u ∧ AtRest u := by
  have hread := hv.far v.near.out.length
  have hempty := swap_deliver_near v
  have hagain := h.far (hw v hv) v.near.out.length
  generalize (v.swap.step (.deliver v.near.out.length)).swap = t at hread hempty hagain
  obtain ⟨hacked, hkept⟩ := hagain.near (hw t hread) t.far.out.length
  have hread' := hread.near t.far.out.length
  have hempty' := deliver_far t
  replace hkept := hkept hempty
  generalize t.step (.deliver t.far.out.length) = u at hread' hempty' hacked hkept
  cases ht2 : u.far.ctx.t2Active with
  | false => exact ⟨u, hread', hkept, hempty', ht2⟩
  | true =>
      have htold := hread'.t2Expired ht2
      obtain ⟨-, hkept'⟩ := hacked.t2Expired.near (hw _ htold) (u.swap.step (.call .t2Expired)).swap.far.out.length
      refine ⟨_, htold.near _, hkept' hkept, deliver_far _, ?_⟩
      exact (congrArg Ctx.t2Active (become_eq u.far _).1).trans (t2Expired_t2Active _ _)

/-- The answer is read. -/
theorem Answering.completes (hw : ∀ u, Repairs w u → Mendable u) (hv : Repairs w v) (h : Answering sent v) :
    ∃ u, Repairs w u ∧ AtRest u := by
  rcases h.near (hw v hv) v.far.out.length with ⟨x, y, ms, hm, -⟩ | h
  · obtain ⟨fs, -, htells⟩ := hm.tells
    rw [deliver_far v] at htells
    exact absurd (List.map_eq_nil_iff.mp htells.symm) (by simp)
  · exact h.completes hw (hv.near v.far.out.length)

/-- The enquiry is read. -/
theorem Asking.completes (hw : ∀ u, Repairs w u → Mendable u) (hv : Repairs w v) (h : Asking sent v) :
    ∃ u, Repairs w u ∧ AtRest u := by
  rcases h.far (hw v hv) v.near.out.length with ⟨x, y, ms, hm, -⟩ | h
  · have hasks := hm.asks
    rw [swap_deliver_near v] at hasks
    exact absurd (List.map_eq_nil_iff.mp hasks.symm) (by simp)
  · exact h.completes hw (hv.far v.near.out.length)

/-- Whatever has been read so far: what is still on its way can be read, and then T2 can expire. -/
theorem Phase.completes (hw : ∀ u, Repairs w u → Mendable u) (h : Phase sent w) : ∃ u, Repairs w u ∧ AtRest u := by
  rcases h with h | h | h
  · exact h.completes hw .start
  · exact h.completes hw .start
  · exact h.completes hw .start

/-- What the far application has been given is all that the near one has accepted, in order and each once, and
both stations have counted it. -/
structure Repaired (w₀ w v : World) : Prop where
  given : givenSince w₀.far.ctx v.far.ctx = (session w.near.ctx.trace).sent
  acknowledged : v.near.ctx.va = v.near.ctx.vs
  received : v.near.ctx.vs = v.far.ctx.vr

theorem not_exhausted {st : Station} {s : Ctx} (h : s.n2 < st.config.maxRetries ∨ st.config.maxRetries = 0) :
    ¬Exhausted st (counted s) := by
  rintro ⟨hpos, hspent⟩
  have hle : (counted s).n2 ≤ s.n2 + 1 := Nat.mod_le _ _
  omega

/-- One enquiry repairs any loss. Whatever the two stations have done, and whatever has been lost: when T1 has
expired at a station that is not busy, and the frames that are then sent are read in any portions and T2
expires as it likes, this comes to an end, and at the end everything has been received, in order and once. -/
theorem enquiry_repairs {w₀ w : World} (hstart : Paired w₀)
    (hrun : Run (fun w m => Operates 65535 w m ∧ Protects w m) w₀ w)
    (hnear : w.near.ctx.currentState = .connected) (hfar : w.far.ctx.currentState = .connected)
    (hquiet : w.near.out = []) (hquiet' : w.far.out = []) (hopen : w.near.ctx.va ≠ w.near.ctx.vs)
    (hbusy : w.near.ctx.localBusy = false)
    (hretries : w.near.ctx.n2 < w.near.station.config.maxRetries ∨ w.near.station.config.maxRetries = 0)
    (hfits : ∀ payload ∈ (session w.near.ctx.trace).sent.drop (session w.near.ctx.trace).acked,
      payload.length + 4 ≤ w.far.station.rxCapacity) :
    ∀ v, Repairs w.polled v → (∃ u, Repairs v u ∧ AtRest u) ∧ (AtRest v → Repaired w₀ w v) := by
  intro v hv
  have hkept := not_exhausted hretries
  have hsession := hrun.transfers hstart hnear hfar
  have hasking := hsession.asking hstart hquiet hquiet' hopen hbusy hkept hfits
  have hpolled := hsession.near (.call .t1Expired) ⟨hkept, trivial⟩
  have hphase : Phase (session w.near.ctx.trace).sent v := hv.phase hstart hpolled (Or.inl hasking)
  have hrepaired := hv.run hpolled
  refine ⟨hphase.completes fun u hu => (hu.run hrepaired).mendable hstart, fun hrest => ?_⟩
  obtain ⟨hacked, hreceived, hsent, hlength⟩ := hphase.atRest hrest
  obtain ⟨-, n, hn⟩ := hrepaired.inSession hstart
  refine ⟨?_, hacked, hreceived⟩
  have hprefix := hn.delivers.inOrder
  have hgiven : givenSince w₀.far.ctx v.far.ctx = AtcHdlc.received v.far.ctx.trace := by
    have hsplit : payloads v.far.ctx.trace = payloads w₀.far.ctx.trace ++ AtcHdlc.received v.far.ctx.trace :=
      hn.farHolds.given
    rw [givenSince, hsplit, List.drop_left]
  rw [hsent] at hprefix
  exact hprefix.eq_of_length (by rw [hgiven, hlength])

/-- Two I-frames of which the first is lost, and the REJ that the second draws is lost too. -/
def rejectedWorld : World := (lossyWorld.stepFar (.deliver 1)).stepFar (.lose 0)

/-- The enquiry, the answer and what is then repeated have been read. -/
def World.reread (w : World) : World :=
  (((w.polled.swap.step (.deliver 1)).swap.step (.deliver 1)).swap.step (.deliver 7)).swap

/-- T2 has expired after that, and its RR has been read. -/
def World.mended (w : World) : World := (w.reread.swap.step (.call .t2Expired)).swap.step (.deliver 1)

theorem reread_repairs (w : World) : Repairs w.polled w.reread := ((Repairs.start.far 1).near 1).far 7

theorem rejectedWorld_run :
    Run (fun w m => Operates 65535 w m ∧ Protects w m) mockWorld rejectedWorld := by
  refine .far _ (.far _ (.near _ (.near _ (.near _ .start ?_) ?_) ?_) ?_) ?_
  · exact ⟨⟨Or.inl rfl, by decide⟩, by decide +kernel⟩
  · exact ⟨⟨Or.inl rfl, by decide⟩, by decide +kernel⟩
  · exact ⟨trivial, trivial⟩
  · exact ⟨trivial, trivial⟩
  · exact ⟨trivial, trivial⟩

theorem enquiry_repairs_mock : Repaired mockWorld rejectedWorld rejectedWorld.mended := by
  have ht2 : rejectedWorld.reread.far.ctx.t2Active = true := by
    show (_ : Bool) = true
    decide +kernel
  have hrepairs : Repairs rejectedWorld.polled rejectedWorld.mended :=
    ((reread_repairs rejectedWorld).t2Expired ht2).near 1
  refine (enquiry_repairs mockWorld_paired rejectedWorld_run ?_ ?_ ?_ ?_ ?_ ?_ ?_ ?_ _ hrepairs).2 ⟨?_, ?_, ?_⟩
  · decide +kernel
  · decide +kernel
  · decide +kernel
  · decide +kernel
  · decide +kernel
  · decide +kernel
  · exact Or.inl (by decide +kernel)
  · decide +kernel
  · decide +kernel
  · decide +kernel
  · decide +kernel

/-- A payload of 13 octets is lost on its way to a station with a receive buffer of 16 octets. -/
def longWorld : World := (wideWorld.swap.accept (List.replicate 13 0x55)).step (.lose 0)

/-- What does not fit the receive buffer of the other station is not received however often it is repeated. -/
theorem long_payload_unrepaired :
    Paired wideWorld.swap ∧ Run (fun w m => Operates 65535 w m ∧ Protects w m) wideWorld.swap longWorld ∧
      longWorld.near.ctx.currentState = .connected ∧ longWorld.far.ctx.currentState = .connected ∧
      longWorld.near.out = [] ∧ longWorld.far.out = [] ∧ longWorld.near.ctx.va ≠ longWorld.near.ctx.vs ∧
      longWorld.near.ctx.localBusy = false ∧
      longWorld.near.ctx.n2 < longWorld.near.station.config.maxRetries ∧
      Repairs longWorld.polled longWorld.reread ∧ AtRest longWorld.reread ∧
      ¬Repaired wideWorld.swap longWorld longWorld.reread := by
  refine ⟨wideWorld_paired.swap, ?_, ?_, ?_, ?_, ?_, ?_, ?_, ?_, reread_repairs longWorld, ⟨?_, ?_, ?_⟩, fun h => ?_⟩
  · refine .near _ (.near _ .start ?_) ?_
    · exact ⟨⟨Or.inl rfl, by decide⟩, by decide +kernel⟩
    · exact ⟨trivial, trivial⟩
  · decide +kernel
  · decide +kernel
  · decide +kernel
  · decide +kernel
  · decide +kernel
  · decide +kernel
  · decide +kernel
  · decide +kernel
  · decide +kernel
  · decide +kernel
  · exact absurd h.acknowledged (by decide +kernel)

end Repair

end AtcHdlc
