import AtcHdlc.Lines

/-! What an application is given was on the line. Two stations, with whatever addresses and check sequences, run over
channels that lose frames, through any number of sessions: the payloads that one application is given are, in their
order, payloads of frames that the other station has put on the line, each of these frames being heard at most once,
and each an I-frame, a UI or a TEST (`nothing_invented`). -/

namespace AtcHdlc

/-- A frame whose information may be meant for the application. -/
def Frame.bears (f : Frame) : Bool :=
  isIframe f.ctrl || isUframe f.ctrl && (uCmd f.ctrl == .ui || uCmd f.ctrl == .test)

/-- The information of such frames, as their receiver cuts it out of its buffer. -/
def borne (fs : List Frame) : List (List UInt8) := (fs.filter Frame.bears).map fun f => heardInfo f.info

theorem borne_append (fs gs : List Frame) : borne (fs ++ gs) = borne fs ++ borne gs := by
  rw [borne, List.filter_append, List.map_append]
  rfl

theorem borne_sublist {fs gs : List Frame} (h : fs.Sublist gs) : (borne fs).Sublist (borne gs) :=
  (h.filter _).map _

section Hearing

variable {st : Station} {s : Ctx} {f : Frame} {fs : List Frame}

/-- Only such frames are handed over. -/
theorem bears_of_hands (h : Hands s f.arriving) : f.bears = true := by
  have hctrl : f.arriving.ctrl = f.ctrl := rfl
  unfold Hands at h
  rw [hctrl] at h
  unfold Frame.bears
  cases hstate : s.currentState with
  | disconnected =>
      rw [hstate] at h
      obtain ⟨hu, hui⟩ := h
      simp [hu, hui]
  | connected =>
      rw [hstate] at h
      by_cases hu : isUframe f.ctrl = true
      · simp only [hu, if_true] at h
        rcases h with hui | ⟨htest, -⟩
        · simp [hu, hui]
        · simp [hu, htest]
      · simp only [hu, Bool.false_eq_true, if_false] at h
        simp [h.1]
  | connecting | disconnecting | frmrError =>
      rw [hstate] at h
      exact h.elim

/-- A frame adds nothing or its information. -/
theorem handed_sublist (st : Station) (s : Ctx) (f : Frame) : (handed st s f.arriving).Sublist (borne [f]) := by
  unfold handed
  split_ifs with hhands
  · have hborne : borne [f] = [heardInfo f.info] := by
      rw [borne, List.filter_cons_of_pos (bears_of_hands hhands.2)]
      rfl
    rw [hborne, arriving_info]
  · exact List.nil_sublist _

variable (hp : st.platform.Passive)
include hp

/-- The octets of a frame of any sender. -/
theorem octets_given (hindex : s.rxIndex = 0) (crc : CrcOps) (f : Frame) :
    (rxBytes st s (f.octets crc)).rxIndex = 0 ∧
      ∃ got, payloads (rxBytes st s (f.octets crc)).trace = payloads s.trace ++ got ∧ got.Sublist (borne [f]) := by
  obtain ⟨t, hread⟩ := rxBytes_octets_of_crc hindex crc f
  rw [hread]
  split_ifs
  · exact ⟨rfl, _, payloads_dispatch hp (s.withParser t) f.arriving, handed_sublist st _ f⟩
  · exact ⟨rfl, [], (List.append_nil _).symm, List.nil_sublist _⟩

/-- A chunk of frames. -/
theorem chunk_given (hindex : s.rxIndex = 0) (crc : CrcOps) (fs : List Frame) :
    (rxBytes st s (fs.flatMap (Frame.octets crc))).rxIndex = 0 ∧
      ∃ got, payloads (rxBytes st s (fs.flatMap (Frame.octets crc))).trace = payloads s.trace ++ got ∧
        got.Sublist (borne fs) := by
  induction fs generalizing s with
  | nil => exact ⟨hindex, [], (List.append_nil _).symm, List.nil_sublist _⟩
  | cons f fs ih =>
      have hread : rxBytes st s ((f :: fs).flatMap (Frame.octets crc)) =
          rxBytes st (rxBytes st s (f.octets crc)) (fs.flatMap (Frame.octets crc)) := by
        rw [List.flatMap_cons, rxBytes, List.foldl_append]
        rfl
      obtain ⟨hindex', got, hgot, hsub⟩ := octets_given hp hindex crc f
      obtain ⟨hindex'', got', hgot', hsub'⟩ := ih hindex'
      have hborne : borne (f :: fs) = borne [f] ++ borne fs := borne_append [f] fs
      rw [hread, hborne]
      refine ⟨hindex'', got ++ got', ?_, hsub.append hsub'⟩
      rw [hgot', hgot, List.append_assoc]

end Hearing

/-! ### Runs -/

/-- Calls that put out whole frames, losses and arrivals. -/
def Framed : Move → Prop
  | .call c => c.Legal ∧ ¬c.Streams ∧ ∀ bytes, c ≠ .dataIn bytes
  | .lose _ | .deliver _ => True

/-- A station between two calls and two frames. -/
structure Between (e : Endpoint) : Prop where
  passive : e.station.platform.Passive
  reachable : ∃ mem, Reachable e.station mem e.ctx
  index : e.ctx.rxIndex = 0

/-- The direction from the near to the far station: what the far application has been given, and what is on its way,
are among what the near station has put on the line. -/
def Genuine (w₀ w : World) : Prop :=
  ∃ (fs coming : List Frame) (got : List (List UInt8)),
    wires w.near.ctx.trace = wires w₀.near.ctx.trace ++ fs.map (Frame.wire w.near.station.crc) ∧
      w.near.out.map Flight.wire = coming.map (Frame.wire w.near.station.crc) ∧
      payloads w.far.ctx.trace = payloads w₀.far.ctx.trace ++ got ∧ (got ++ borne coming).Sublist (borne fs)

section Runs

variable {w₀ w : World}

theorem Between.call {e : Endpoint} (h : Between e) {c : Call} (hlegal : c.Legal) (hstreams : ¬c.Streams)
    (hin : ∀ bytes, c ≠ .dataIn bytes) : Between (e.call c) ∧ payloads (e.call c).ctx.trace = payloads e.ctx.trace ∧
      ∃ gs : List Frame, wires (e.call c).ctx.trace = wires e.ctx.trace ++ gs.map (Frame.wire e.station.crc) ∧
        (e.call c).out.map Flight.wire = e.out.map Flight.wire ++ gs.map (Frame.wire e.station.crc) := by
  obtain ⟨hctx, hstation⟩ : (e.call c).ctx = c.run e.station e.ctx ∧ (e.call c).station = e.station :=
    become_eq e _
  obtain ⟨mem, hreach⟩ := h.reachable
  obtain ⟨gs, hwires, -⟩ := (Call.utters h.passive e.ctx hlegal hstreams).frames
  refine ⟨⟨?_, ⟨mem, ?_⟩, ?_⟩, ?_, gs, ?_, become_wires hwires⟩
  · rw [hstation]
    exact h.passive
  · rw [hstation, hctx]
    exact .call c hreach hlegal
  · rw [hctx]
    exact (Call.rxIndex_eq h.passive e.ctx hlegal hin).trans h.index
  · rw [hctx]
    exact Call.payloads_eq h.passive e.ctx hlegal hin
  · rw [hctx]
    exact hwires

theorem Between.receive {e : Endpoint} (h : Between e) {flights : List Flight} {crc : CrcOps} {fs : List Frame}
    (hfs : flights.map Flight.wire = fs.map (Frame.wire crc)) : Between (e.receive flights) ∧
      (∃ got, payloads (e.receive flights).ctx.trace = payloads e.ctx.trace ++ got ∧ got.Sublist (borne fs)) ∧
      ∃ gs : List Frame, wires (e.receive flights).ctx.trace = wires e.ctx.trace ++ gs.map (Frame.wire e.station.crc) ∧
        (e.receive flights).out.map Flight.wire = e.out.map Flight.wire ++ gs.map (Frame.wire e.station.crc) := by
  obtain ⟨hctx, hstation⟩ := receive_eq e flights
  obtain ⟨mem, hreach⟩ := h.reachable
  have hlegal : (Call.dataIn (flights.flatMap fun f => f.wire.octets)).Legal := trivial
  obtain ⟨gs, hwires, -⟩ := (Call.utters h.passive e.ctx hlegal id).frames
  obtain ⟨hindex, got, hgot, hsub⟩ := chunk_given h.passive h.index crc fs
  rw [← flatMap_octets hfs] at hindex hgot
  have hinv : ∀ tw, e.station.txWindow = some tw →
      WindowInv tw (rxBytes e.station e.ctx (flights.flatMap fun f => f.wire.octets)) :=
    fun tw htw => (hreach.windowInv htw h.passive).rxBytes h.passive _
  refine ⟨⟨?_, ⟨mem, ?_⟩, ?_⟩, ⟨got, ?_, hsub⟩, gs, ?_, receive_wires hwires⟩
  · rw [hstation]
    exact h.passive
  · rw [hstation, hctx]
    exact Reachable.call (.dataIn _) hreach hlegal
  · rw [hctx]
    exact (@retransmitIfPending_agree e.station _).rxIndex.trans hindex
  · rw [hctx, dataIn, retransmitIfPending_payloads hinv]
    exact hgot
  · rw [hctx]
    exact hwires

/-- The near station puts some more frames on the line. -/
theorem Genuine.grow (h : Genuine w₀ w) {e : Endpoint} (hstation : e.station = w.near.station) {gs : List Frame}
    (hwires : wires e.ctx.trace = wires w.near.ctx.trace ++ gs.map (Frame.wire w.near.station.crc))
    (hout : e.out.map Flight.wire = w.near.out.map Flight.wire ++ gs.map (Frame.wire w.near.station.crc)) :
    Genuine w₀ ⟨e, w.far⟩ := by
  obtain ⟨fs, coming, got, hline, hway, hgot, hsub⟩ := h
  refine ⟨fs ++ gs, coming ++ gs, got, ?_, ?_, hgot, ?_⟩
  · show wires e.ctx.trace = _ ++ (fs ++ gs).map (Frame.wire e.station.crc)
    rw [hwires, hline, hstation, List.append_assoc, ← List.map_append]
  · show e.out.map Flight.wire = (coming ++ gs).map (Frame.wire e.station.crc)
    rw [hout, hway, hstation, List.map_append]
  · rw [borne_append, borne_append, ← List.append_assoc]
    exact hsub.append_right _

/-- Two stations between two calls, and what is genuine in either direction. -/
structure Upright (w₀ w : World) : Prop where
  near : Between w.near
  far : Between w.far
  toFar : Genuine w₀ w
  toNear : Genuine w₀.swap w.swap

theorem Upright.swap (h : Upright w₀ w) : Upright w₀.swap w.swap := ⟨h.far, h.near, h.toNear, h.toFar⟩

theorem Upright.call (h : Upright w₀ w) {c : Call} (hlegal : c.Legal) (hstreams : ¬c.Streams)
    (hin : ∀ bytes, c ≠ .dataIn bytes) : Upright w₀ (w.step (.call c)) := by
  obtain ⟨hnear, hpayloads, gs, hwires, hout⟩ := h.near.call hlegal hstreams hin
  obtain ⟨fs, coming, got, hline, hway, hgot, hsub⟩ := h.toNear
  exact ⟨hnear, h.far, h.toFar.grow (become_eq w.near _).2 hwires hout, fs, coming, got, hline, hway,
    hpayloads.trans hgot, hsub⟩

theorem Upright.lose (h : Upright w₀ w) (i : Nat) : Upright w₀ (w.step (.lose i)) := by
  obtain ⟨fs, coming, got, hline, hway, hgot, hsub⟩ := h.toFar
  refine ⟨⟨h.near.passive, h.near.reachable, h.near.index⟩, h.far, ⟨fs, coming.eraseIdx i, got, hline, ?_, hgot, ?_⟩,
    h.toNear⟩
  · show (w.near.out.eraseIdx i).map Flight.wire = _
    rw [← List.eraseIdx_map, hway, List.eraseIdx_map]
    rfl
  · have hkept : (borne (coming.eraseIdx i)).Sublist (borne coming) := borne_sublist (List.eraseIdx_sublist coming i)
    exact (hkept.append_left got).trans hsub

theorem Upright.deliver (h : Upright w₀ w) (k : Nat) : Upright w₀ (w.step (.deliver k)) := by
  obtain ⟨fs, coming, got, hline, hway, hgot, hsub⟩ := h.toNear
  have harriving : (w.far.out.take k).map Flight.wire = (coming.take k).map (Frame.wire w.far.station.crc) := by
    rw [List.map_take, List.map_take]
    exact congrArg (List.take k) hway
  obtain ⟨hnear, ⟨got', hgot', hsub'⟩, gs, hwires, hout⟩ := h.near.receive harriving
  have hfar : Genuine w₀ ⟨w.near.receive (w.far.out.take k), w.far⟩ :=
    h.toFar.grow (receive_eq w.near _).2 hwires hout
  refine ⟨hnear, ⟨h.far.passive, h.far.reachable, h.far.index⟩, hfar, fs, coming.drop k, got ++ got', hline,
    drop_wires hway k, ?_, ?_⟩
  · show payloads (w.near.receive (w.far.out.take k)).ctx.trace = _
    rw [hgot', ← List.append_assoc]
    exact congrArg (· ++ got') hgot
  · have hsplit : borne coming = borne (coming.take k) ++ borne (coming.drop k) := by
      rw [← borne_append, List.take_append_drop]
    have hmoved : (got ++ got' ++ borne (coming.drop k)).Sublist (got ++ borne coming) := by
      rw [List.append_assoc, hsplit]
      exact (hsub'.append_right _).append_left got
    exact hmoved.trans hsub

theorem Upright.step (h : Upright w₀ w) {m : Move} (hm : Framed m) : Upright w₀ (w.step m) := by
  cases m with
  | call c => exact h.call hm.1 hm.2.1 hm.2.2
  | lose i => exact h.lose i
  | deliver k => exact h.deliver k

/-- Two stations start with nothing on its way. In every run over channels that lose frames, what an application is
given is a part, in order, of what the other station has put on the line in I-frames, UIs and TESTs, no frame being
heard twice. -/
theorem nothing_invented (hnear : Between w₀.near) (hfar : Between w₀.far) (hempty : w₀.near.out = [])
    (hempty' : w₀.far.out = []) (hrun : Run (fun _ => Framed) w₀ w) : Genuine w₀ w ∧ Genuine w₀.swap w.swap := by
  have hstart {v : World} (hnothing : v.near.out = []) : Genuine v v := by
    refine ⟨[], [], [], (List.append_nil _).symm, ?_, (List.append_nil _).symm, List.nil_sublist _⟩
    rw [hnothing]
    rfl
  have hupright : Upright w₀ w := hrun.invariant_from (P := Upright)
    ⟨hnear, hfar, hstart hempty, hstart (v := w₀.swap) hempty'⟩ (fun _ _ => Upright.swap)
    fun _ _ _ hupright hm => hupright.step hm
  exact ⟨hupright.toFar, hupright.toNear⟩

/-- An I-frame is lost, and the UI after it arrives. -/
def announcedWorld : World :=
  (((mockWorld.accept [0x11]).step (.call (.transmitUi 0xFF (.octets [0x42])))).step (.lose 0)).stepFar (.deliver 2)

theorem nothing_invented_mock :
    payloads announcedWorld.far.ctx.trace = [[0x42]] ∧ Genuine mockWorld announcedWorld ∧
      Genuine mockWorld.swap announcedWorld.swap := by
  have hstart := mockWorld_paired
  have hrun : Run (fun _ => Framed) mockWorld announcedWorld :=
    .far (.deliver 2) (.near _ (.near _ (.near _ .start ⟨Or.inl rfl, id, fun _ => Call.noConfusion⟩)
      ⟨trivial, id, fun _ => Call.noConfusion⟩) trivial) trivial
  refine ⟨by decide +kernel, nothing_invented ?_ ?_ rfl rfl hrun⟩
  · exact ⟨mockPlatform_passive, hstart.nearReachable, hstart.established.near.index⟩
  · exact ⟨mockPlatform_passive, hstart.farReachable, hstart.established.far.index⟩

end Runs

end AtcHdlc
