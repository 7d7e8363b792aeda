import AtcHdlc.Delivery
import AtcHdlc.Retries

/-! The enquiry of a busy station. When T1 expires at a station that is locally busy, it asks with an RNR, and
an RNR always carries the sender's own address: to the other station it is no command but a response, and
nothing answers it. -/

namespace AtcHdlc

section Speaks

variable {st : Station}

/-- From `s` to `s'` whole frames go out, and the addresses stay. -/
structure Speaks (st : Station) (s s' : Ctx) : Prop where
  myAddress : s'.myAddress = s.myAddress
  peerAddress : s'.peerAddress = s.peerAddress
  said : ∃ fs : List Frame, wires s'.trace = wires s.trace ++ fs.map (Frame.wire st.crc)

namespace Speaks

theorem of_line {s s' : Ctx} (hmy : s'.myAddress = s.myAddress) (hpeer : s'.peerAddress = s.peerAddress)
    (hline : onLine s'.trace = onLine s.trace) : Speaks st s s' := by
  refine ⟨hmy, hpeer, [], ?_⟩
  rw [← wires_onLine, hline, wires_onLine]
  exact (List.append_nil _).symm

theorem refl (s : Ctx) : Speaks st s s := .of_line rfl rfl rfl

theorem trans {s t u : Ctx} (h : Speaks st s t) (h' : Speaks st t u) : Speaks st s u := by
  obtain ⟨fs, hfs⟩ := h.said
  obtain ⟨gs, hgs⟩ := h'.said
  refine ⟨h'.myAddress.trans h.myAddress, h'.peerAddress.trans h.peerAddress, fs ++ gs, ?_⟩
  rw [hgs, hfs, List.map_append, List.append_assoc]

theorem put (s : Ctx) (f : Frame) : Speaks st s (s.put st f) :=
  ⟨rfl, rfl, [f], wires_obs s.trace st.crc s.moment f⟩

/-- What a view of the link leaves alone. -/
theorem of_view {s s' : Ctx} (hmy : (linkView s').myAddress = (linkView s).myAddress)
    (hpeer : (linkView s').peerAddress = (linkView s).peerAddress)
    (hline : (linkView s').line = (linkView s).line) : Speaks st s s' := .of_line hmy hpeer hline

theorem t1Start (s : Ctx) : Speaks st s (t1Start st s) := by
  apply of_view
  all_goals rw [linkView_t1Start]

theorem t1Stop (s : Ctx) : Speaks st s (t1Stop st s) := by
  apply of_view
  all_goals rw [linkView_t1Stop]

theorem t2Start (s : Ctx) : Speaks st s (t2Start st s) := by
  apply of_view
  all_goals rw [linkView_t2Start]

theorem t2Stop (s : Ctx) : Speaks st s (t2Stop st s) := by
  apply of_view
  all_goals rw [linkView_t2Stop]; rfl

theorem resetState (s : Ctx) : Speaks st s (resetState st s) := by
  apply of_view
  all_goals rw [linkView_resetState]; rfl

theorem onData (hp : st.platform.Passive) (s : Ctx) (payload : List UInt8) :
    Speaks st s (onData st s payload) := by
  apply of_view
  all_goals rw [linkView_onData hp]; rfl

theorem onEvent (hp : st.platform.Passive) (s : Ctx) (event : Event) : Speaks st s (onEvent st s event) := by
  apply of_view
  all_goals rw [linkView_onEvent hp]; rfl

theorem log (s : Ctx) {o : Obs} (ho : onLine [o] = []) : Speaks st s (s.log o) := by
  refine .of_line rfl rfl ?_
  exact (onLine_append s.trace [o]).trans (by rw [ho, List.append_nil])

end Speaks

theorem Effect.speaks (hp : st.platform.Passive) {ctrl : UInt8} {s s' : Ctx} (h : Effect st ctrl s s') :
    Speaks st s s' := by
  cases h with
  | put f => exact .put s f
  | t1Start => exact .t1Start s
  | t1Stop => exact .t1Stop s
  | t2Start => exact .t2Start s
  | t2Stop => exact .t2Stop s
  | data payload => exact .onData hp s payload
  | event event => exact .onEvent hp s event
  | reset => exact .resetState s
  | nullWindow => exact .log s rfl
  | ack _ _ => exact (Speaks.log s (o := .acked (ctrlNr ctrl)) rfl).trans (.of_line rfl rfl rfl)
  | receive payload => exact (Speaks.log s (o := .received payload) rfl).trans (.of_line rfl rfl rfl)
  | link | rejException | remoteBusy | arm | frmr => exact .of_line rfl rfl rfl

theorem rxBytes_speaks (hp : st.platform.Passive) (s : Ctx) (bytes : List UInt8) :
    Speaks st s (rxBytes st s bytes) := by
  refine rxBytes_induct (Q := fun _ => Speaks st s) (fun t u ht => ?_) (fun t address ctrl info ht => ?_)
    (fun ctrl t t' he ht => ht.trans (he.speaks hp)) (fun _ _ ht => ht) (.refl s) bytes
  · exact ht.trans (.of_line rfl rfl rfl)
  · exact ht.trans (.log t rfl)

theorem retransmitLoop_speaks (w : TxWindow) (endVs fuel slotIdx : Nat) (s : Ctx) :
    Speaks st s (retransmitLoop st w endVs fuel slotIdx s) := by
  induction fuel generalizing slotIdx s with
  | zero => exact .refl s
  | succ fuel ih =>
      simp only [retransmitLoop, frameSend_octets]
      split_ifs
      · exact .refl s
      · have hread : Speaks st s (s.log (.slotRead slotIdx)) := .log s rfl
        have hvs (t : Ctx) (vs : Nat) : Speaks st t { t with vs := vs } := .of_line rfl rfl rfl
        exact ((hread.trans (.put _ _)).trans (hvs _ _)).trans (ih _ _)

theorem retransmitOutstanding_speaks (w : TxWindow) (s : Ctx) :
    Speaks st s (retransmitOutstanding st w s) := by
  unfold retransmitOutstanding
  extract_lets t endVs outstanding slotIdx u v
  have hu : Speaks st s u := .of_line rfl rfl rfl
  exact (hu.trans (retransmitLoop_speaks w endVs 8 slotIdx u)).trans (.t1Start v)

theorem retransmitIfPending_speaks (s : Ctx) : Speaks st s (retransmitIfPending st s) := by
  unfold retransmitIfPending
  split_ifs
  · cases st.txWindow with
    | none => exact .log s rfl
    | some w => exact retransmitOutstanding_speaks w s
  · exact .refl s

/-- A call that is not of the streaming kind, and sets up no session, puts out whole frames. -/
theorem Deed.speaks (hp : st.platform.Passive) {call : Call} (hstreams : ¬call.Streams)
    (hpeer : ∀ peerAddr, call ≠ .linkSetup peerAddr) {s s' : Ctx} (h : Deed st call s s') :
    Speaks st s s' := by
  cases h with
  | put f => exact .put s f
  | loose crc os hos h => exact absurd h hstreams
  | t1Start => exact .t1Start s
  | t2Stop => exact .t2Stop s
  | event event => exact .onEvent hp s event
  | reset _ => exact .resetState s
  | peer peerAddr h _ => exact absurd h (hpeer peerAddr)
  | accept w data _ _ =>
      have hfilled : Speaks st s (filled w s data) := .of_line rfl rfl rfl
      exact hfilled.trans (.log _ rfl)
  | _ => exact .of_line rfl rfl rfl

end Speaks

/-- A station between two calls, with whole frames in its channel. -/
structure Linked (my peer : UInt8) (e : Endpoint) : Prop where
  myAddress : e.ctx.myAddress = my
  peerAddress : e.ctx.peerAddress = peer
  index : e.ctx.rxIndex = 0
  out : ∀ f ∈ e.out, ∃ l, f.wire.octets = l ++ [flag]

section Linked

variable {my peer : UInt8} {e : Endpoint}

theorem foldl_emit_out (e : Endpoint) (l : List Wire) :
    (l.foldl Endpoint.emit e).ctx = e.ctx ∧ (l.foldl Endpoint.emit e).station = e.station ∧
      ∀ f ∈ (l.foldl Endpoint.emit e).out, f ∈ e.out ∨ f.wire ∈ l := by
  induction l generalizing e with
  | nil => exact ⟨rfl, rfl, fun f hf => Or.inl hf⟩
  | cons w l ih =>
      have hone : (e.emit w).ctx = e.ctx ∧ (e.emit w).station = e.station ∧
          ∃ n, (e.emit w).out = e.out ++ [⟨w, n⟩] := by
        unfold Endpoint.emit
        split_ifs
        · exact ⟨rfl, rfl, _, rfl⟩
        · exact ⟨rfl, rfl, _, rfl⟩
      obtain ⟨hctx, hstation, n, hout⟩ := hone
      obtain ⟨hctx', hstation', hmem⟩ := ih (e.emit w)
      refine ⟨hctx'.trans hctx, hstation'.trans hstation, fun f hf => ?_⟩
      rcases hmem f hf with hold | hnew
      · rw [hout] at hold
        rcases List.mem_append.mp hold with hold | hone
        · exact Or.inl hold
        · rw [List.mem_singleton.mp hone]
          exact Or.inr List.mem_cons_self
      · exact Or.inr (List.mem_cons_of_mem _ hnew)

theorem become_eq (e : Endpoint) (s : Ctx) : (e.become s).ctx = s ∧ (e.become s).station = e.station :=
  ⟨(foldl_emit_out { e with ctx := s } _).1, (foldl_emit_out { e with ctx := s } _).2.1⟩

theorem Linked.become (h : Linked my peer e) {s : Ctx} (hs : Speaks e.station e.ctx s)
    (hindex : s.rxIndex = 0) : Linked my peer (e.become s) := by
  obtain ⟨hctx, -⟩ := become_eq e s
  obtain ⟨fs, hfs⟩ := hs.said
  refine ⟨?_, ?_, ?_, fun f hf => ?_⟩
  · rw [hctx, hs.myAddress, h.myAddress]
  · rw [hctx, hs.peerAddress, h.peerAddress]
  · rw [hctx, hindex]
  · rw [Endpoint.become, hfs, List.drop_left] at hf
    rcases (foldl_emit_out { e with ctx := s } _).2.2 f hf with hold | hnew
    · exact h.out f hold
    · obtain ⟨g, -, hg⟩ := List.mem_map.mp hnew
      rw [← hg]
      exact ⟨flag :: octetCode.stuff (g.content e.station.crc), rfl⟩

/-- A call of the exchange. -/
theorem Linked.call (hp : e.station.platform.Passive) (h : Linked my peer e) {c : Call} (hlegal : c.Legal)
    (hin : ∀ bytes, c ≠ .dataIn bytes) (hstreams : ¬c.Streams) (hpeer : ∀ peerAddr, c ≠ .linkSetup peerAddr) :
    Linked my peer (e.call c) := by
  have hdeeds := Call.deeds e.station e.ctx hlegal hin
  refine h.become ?_ ?_
  · exact hdeeds.induct (P := Speaks e.station e.ctx) (fun _ _ hd ht => ht.trans (hd.speaks hp hstreams hpeer))
      (.refl _)
  · exact (Call.rxIndex_eq hp e.ctx hlegal hin).trans h.index

theorem foldl_hear (e : Endpoint) (flights : List Flight) :
    ∃ heard, flights.foldl Endpoint.hear e = { e with heard := heard } := by
  induction flights generalizing e with
  | nil => exact ⟨e.heard, rfl⟩
  | cons f flights ih =>
      obtain ⟨heard, hfold⟩ := ih (e.hear f)
      refine ⟨heard, hfold.trans ?_⟩
      unfold Endpoint.hear
      split_ifs
      · rfl
      · rfl

/-- Whole frames leave the parser between two frames. -/
theorem dataIn_rxIndex {s : Ctx} {st : Station} (h : s.rxIndex = 0) {flights : List Flight}
    (hflights : ∀ f ∈ flights, ∃ l, f.wire.octets = l ++ [flag]) :
    (dataIn st s (flights.flatMap fun f => f.wire.octets)).rxIndex = 0 := by
  rw [dataIn, (retransmitIfPending_agree _).rxIndex]
  rcases List.eq_nil_or_concat flights with rfl | ⟨before, last, rfl⟩
  · exact h
  · obtain ⟨l, hl⟩ := hflights last (by simp)
    have hbytes : (before ++ [last]).flatMap (fun f => f.wire.octets) =
        before.flatMap (fun f => f.wire.octets) ++ l ++ [flag] := by
      rw [List.flatMap_append, List.flatMap_singleton, hl, List.append_assoc]
    rw [List.concat_eq_append, hbytes, rxBytes_snoc]
    rcases @rxByte_flag_cases st (rxBytes st s (before.flatMap (fun f => f.wire.octets) ++ l)) with
      hreset | ⟨address, ctrl, info, hreset⟩
    · rw [hreset]
      rfl
    · rw [hreset]
      rfl

/-- Frames of the other station arrive. -/
theorem Linked.receive (hp : e.station.platform.Passive) (h : Linked my peer e) {flights : List Flight}
    (hflights : ∀ f ∈ flights, ∃ l, f.wire.octets = l ++ [flag]) : Linked my peer (e.receive flights) := by
  obtain ⟨heard, hhear⟩ := foldl_hear e flights
  have hheard : Linked my peer { e with heard := heard } := ⟨h.myAddress, h.peerAddress, h.index, h.out⟩
  rw [Endpoint.receive, hhear]
  exact hheard.become ((rxBytes_speaks hp e.ctx _).trans (retransmitIfPending_speaks _))
    (dataIn_rxIndex h.index hflights)

end Linked

/-- What the stations of an exchange do. -/
def Exchanges (_ : World) : Move → Prop
  | .call c => c.Legal ∧ match c with
      | .transmitI _ | .setLocalBusy _ | .t1Expired | .t2Expired => True
      | _ => False
  | .lose _ | .deliver _ => True

/-- Two stations, each with the address of the other one as its peer's. -/
structure Joined (w : World) : Prop where
  near : Linked w.near.station.config.address w.far.station.config.address w.near
  far : Linked w.far.station.config.address w.near.station.config.address w.far
  distinct : w.near.station.config.address ≠ w.far.station.config.address
  nearPassive : w.near.station.platform.Passive
  farPassive : w.far.station.platform.Passive

theorem Joined.swap {w : World} (h : Joined w) : Joined w.swap :=
  ⟨h.far, h.near, h.distinct.symm, h.farPassive, h.nearPassive⟩

/-- A move leaves the stations as they are. -/
theorem Joined.of_linked {w w' : World} (h : Joined w) (hnear : w'.near.station = w.near.station)
    (hfar : w'.far.station = w.far.station)
    (hlinked : Linked w.near.station.config.address w.far.station.config.address w'.near)
    (hlinked' : Linked w.far.station.config.address w.near.station.config.address w'.far) : Joined w' := by
  constructor
  · rw [hnear, hfar]
    exact hlinked
  · rw [hnear, hfar]
    exact hlinked'
  · rw [hnear, hfar]
    exact h.distinct
  · rw [hnear]
    exact h.nearPassive
  · rw [hfar]
    exact h.farPassive

theorem receive_eq (e : Endpoint) (flights : List Flight) :
    (e.receive flights).ctx = dataIn e.station e.ctx (flights.flatMap fun f => f.wire.octets) ∧
      (e.receive flights).station = e.station := by
  obtain ⟨heard, hhear⟩ := foldl_hear e flights
  rw [Endpoint.receive, hhear]
  exact become_eq _ _

theorem foldl_emit_wires (e : Endpoint) (l : List Wire) :
    (l.foldl Endpoint.emit e).out.map Flight.wire = e.out.map Flight.wire ++ l := by
  induction l generalizing e with
  | nil => exact (List.append_nil _).symm
  | cons f l ih =>
      have hone : (e.emit f).out.map Flight.wire = e.out.map Flight.wire ++ [f] := by
        unfold Endpoint.emit
        split_ifs
        · exact List.map_append
        · exact List.map_append
      rw [List.foldl_cons, ih, hone, List.append_assoc, List.singleton_append]

/-- What a call puts on the line is on its way. -/
theorem become_wires {e : Endpoint} {s : Ctx} {l : List Wire} (h : wires s.trace = wires e.ctx.trace ++ l) :
    (e.become s).out.map Flight.wire = e.out.map Flight.wire ++ l := by
  rw [Endpoint.become, h, List.drop_left]
  exact foldl_emit_wires { e with ctx := s } l

theorem receive_wires {e : Endpoint} {flights : List Flight} {l : List Wire}
    (h : wires (dataIn e.station e.ctx (flights.flatMap fun f => f.wire.octets)).trace =
      wires e.ctx.trace ++ l) : (e.receive flights).out.map Flight.wire = e.out.map Flight.wire ++ l := by
  obtain ⟨heard, hhear⟩ := foldl_hear e flights
  rw [Endpoint.receive, hhear]
  exact become_wires (e := { e with heard := heard }) h

/-- The octets of frames on their way. -/
theorem flatMap_octets {flights : List Flight} {crc : CrcOps} {fs : List Frame}
    (h : flights.map Flight.wire = fs.map (Frame.wire crc)) :
    (flights.flatMap fun f => f.wire.octets) = fs.flatMap (Frame.octets crc) := by
  have hflights : (flights.flatMap fun f => f.wire.octets) = (flights.map Flight.wire).flatMap Wire.octets :=
    (List.flatMap_map _ _ _).symm
  rw [hflights, h]
  exact List.flatMap_map _ _ _

/-- What arrives of a channel. -/
theorem take_octets {flights : List Flight} {crc : CrcOps} {fs : List Frame}
    (h : flights.map Flight.wire = fs.map (Frame.wire crc)) (n : Nat) :
    ((flights.take n).flatMap fun f => f.wire.octets) = (fs.take n).flatMap (Frame.octets crc) := by
  refine flatMap_octets ?_
  rw [List.map_take, h, List.map_take]

theorem drop_wires {flights : List Flight} {crc : CrcOps} {fs : List Frame}
    (h : flights.map Flight.wire = fs.map (Frame.wire crc)) (n : Nat) :
    (flights.drop n).map Flight.wire = (fs.drop n).map (Frame.wire crc) := by
  rw [List.map_drop, h, List.map_drop]

theorem step_stations (w : World) (m : Move) :
    (w.step m).near.station = w.near.station ∧ (w.step m).far.station = w.far.station := by
  cases m with
  | call c => exact ⟨(become_eq _ _).2, rfl⟩
  | lose i => exact ⟨rfl, rfl⟩
  | deliver n => exact ⟨(receive_eq _ _).2, rfl⟩

theorem Joined.step {w : World} (h : Joined w) {m : Move} (hm : Exchanges w m) : Joined (w.step m) := by
  obtain ⟨hnear, hfar⟩ := step_stations w m
  cases m with
  | call c =>
      obtain ⟨hlegal, hkind⟩ := hm
      refine h.of_linked hnear hfar (h.near.call h.nearPassive hlegal ?_ ?_ ?_) h.far
      · rintro bytes rfl
        exact hkind
      · cases c with
        | transmitUiStart | transmitUiData | transmitUiEnd | abort => exact hkind.elim
        | _ => exact id
      · rintro peerAddr rfl
        exact hkind
  | lose i =>
      exact h.of_linked hnear hfar ⟨h.near.myAddress, h.near.peerAddress, h.near.index,
        fun f hf => h.near.out f (List.mem_of_mem_eraseIdx hf)⟩ h.far
  | deliver n =>
      refine h.of_linked hnear hfar (h.near.receive h.nearPassive ?_) ?_
      · exact fun f hf => h.far.out f (List.mem_of_mem_take hf)
      · exact ⟨h.far.myAddress, h.far.peerAddress, h.far.index, fun f hf => h.far.out f (List.mem_of_mem_drop hf)⟩

/-- A connection without history. -/
structure Fresh (e : Endpoint) : Prop where
  connected : e.ctx.currentState = .connected
  counters : e.ctx.vs = 0 ∧ e.ctx.va = 0 ∧ e.ctx.vr = 0 ∧ e.ctx.txNextSlot = 0 ∧ e.ctx.n2 = 0
  timers : e.ctx.t1Active = false ∧ e.ctx.t2Active = false
  flags : e.ctx.rejException = false ∧ e.ctx.remoteBusy = false ∧ e.ctx.localBusy = false ∧
    e.ctx.retransmitPending = false
  session : (session e.ctx.trace).sent = [] ∧ (session e.ctx.trace).acked = 0
  received : received e.ctx.trace = []
  numbers : e.issued = 0 ∧ e.heard = 0
  out : e.out = []

/-- Two joined stations whose connection is fresh. -/
structure Established (w : World) : Prop extends Joined w where
  nearFresh : Fresh w.near
  farFresh : Fresh w.far

theorem Run.joined {w₀ w : World} (hstart : Established w₀) (hrun : Run Exchanges w₀ w) : Joined w :=
  hrun.invariant hstart.toJoined (fun _ h => h.swap) fun _ _ h hm => h.step hm

/-! ### The enquiry -/

namespace World

/-- T1 expires at the near station. -/
def polled (w : World) : World := w.step (.call .t1Expired)

/-- What the near station has sent arrives at the far one. -/
def heard (w : World) : World := (w.polled.swap.step (.deliver w.polled.near.out.length)).swap

/-- What the far station has sent then arrives at the near one. -/
def settled (w : World) : World := w.heard.step (.deliver w.heard.far.out.length)

/-- The far station has heard a command with P=1. -/
def Polls (w : World) : Prop :=
  ∃ f ∈ (dispatches w.heard.far.ctx.trace).drop (dispatches w.far.ctx.trace).length,
    isCmd w.far.ctx f.address = true ∧ ctrlPf f.ctrl = true

/-- It answers with a supervisory response with F=1 and its V(R). -/
def IsAnswered (w : World) : Prop :=
  ∃ x ∈ sentSince w.far.ctx w.heard.far.ctx,
    isFinal w.far.ctx.myAddress x = true ∧ ctrlNr x.2 = w.heard.far.ctx.vr

/-- What is then still outstanding at the near station, it has sent again. -/
def IsRepeated (w : World) : Prop :=
  ∀ k, (AtcHdlc.session w.settled.near.ctx.trace).acked ≤ k →
    k < (AtcHdlc.session w.settled.near.ctx.trace).sent.length →
    ∃ x ∈ sentSince w.polled.near.ctx w.settled.near.ctx, isIframe x.2 = true ∧ ctrlNs x.2 = k % mod8

/-- The enquiry of the near station recovers what is lost. -/
structure Recovers (w : World) : Prop where
  polls : w.Polls
  answered : w.IsAnswered
  repeated : w.IsRepeated

end World

section Enquiry

variable {st : Station}

theorem isSframe_alone {ctrl : UInt8} (h : isSframe ctrl = true) :
    isIframe ctrl = false ∧ isUframe ctrl = false := by
  have hmod := (isSframe_iff ctrl).mp h
  constructor
  · rw [← Bool.not_eq_true, isIframe_iff]
    omega
  · rw [← Bool.not_eq_true, isUframe_iff]
    omega

namespace LinkView

theorem heads_reject (v : LinkView) (frmr : Frame) :
    heads (v.reject st frmr).line = heads v.line ++ [(frmr.address, frmr.ctrl)] := heads_say _ _ _

/-- A supervisory response brings no supervisory frame: nothing, or an FRMR. -/
theorem heads_next_response {s : Ctx} {f : Received} (hstate : s.currentState = .connected)
    (hs : isSframe f.ctrl = true) (hresponse : isCmd s f.address = false) :
    ∃ l, heads ((linkView s).next st s f).line = heads (linkView s).line ++ l ∧
      ∀ x ∈ l, isSframe x.2 = false := by
  obtain ⟨hi, hu⟩ := isSframe_alone hs
  have hi' : ¬isIframe f.ctrl = true := ne_true_of_eq_false hi
  by_cases hvalid : nrValid s (ctrlNr f.ctrl) = true
  · have hnothing : answer s f = [] := by
      simp only [answer, if_neg hi', hresponse, Bool.false_and, Bool.false_eq_true, if_false]
    refine ⟨[], ?_, by simp⟩
    rw [(heads_next hstate hu hvalid).1, hnothing]
  · have hu' : ¬isUframe f.ctrl = true := ne_true_of_eq_false hu
    have hfrmr : isSframe (uCtrl uFrmr false) = false := by decide
    refine ⟨[(s.myAddress, uCtrl uFrmr false)], ?_, fun x hx => List.mem_singleton.mp hx ▸ hfrmr⟩
    simp only [next, hstate]
    rw [if_neg hu', if_neg hi', if_pos hvalid, heads_reject, hresponse, Bool.false_and]
    have hpoll := @heads_poll st ((linkView s).busy st (ctrlS f.ctrl)) false
    rw [line_busy, if_neg Bool.false_ne_true, List.append_nil] at hpoll
    rw [hpoll.1]
    rfl

end LinkView

/-- The answer of a station to a whole frame that is a supervisory response. -/
theorem dispatch_response (hp : st.platform.Passive) {s : Ctx} {f : Received}
    (hstate : s.currentState = .connected) (hs : isSframe f.ctrl = true)
    (hresponse : isCmd s f.address = false) :
    ∃ l, heads (f.dispatch st s).trace = heads s.trace ++ l ∧ ∀ x ∈ l, isSframe x.2 = false := by
  obtain ⟨l, hl, hkind⟩ := @LinkView.heads_next_response st s f hstate hs hresponse
  rw [← dispatchFrame_linkView hp s f] at hl
  refine ⟨l, ?_, hkind⟩
  rw [← heads_onLine, ← heads_onLine s.trace]
  exact hl

/-- A supervisory response arrives: no supervisory frame is sent, and no other frame is dispatched. -/
theorem dataIn_response (hp : st.platform.Passive) {s : Ctx} (hindex : s.rxIndex = 0)
    (hstate : s.currentState = .connected) (crc : CrcOps) {f : Frame} (hs : isSframe f.ctrl = true)
    (hresponse : isCmd s f.address = false) :
    (∃ l, heads (dataIn st s (f.octets crc)).trace = heads s.trace ++ l ∧
      ∀ x ∈ l, isSframe x.2 = false) ∧
    ∃ l, dispatches (dataIn st s (f.octets crc)).trace = dispatches s.trace ++ l ∧
      ∀ g ∈ l, g.address = f.address := by
  obtain ⟨t, hread⟩ := @rxBytes_octets_of_crc st s hindex crc f
  have hrx : (∃ l, heads (rxBytes st s (f.octets crc)).trace = heads s.trace ++ l ∧
      ∀ x ∈ l, isSframe x.2 = false) ∧
      ∃ l, dispatches (rxBytes st s (f.octets crc)).trace = dispatches s.trace ++ l ∧
        ∀ g ∈ l, g.address = f.address := by
    rw [hread]
    split_ifs
    · refine ⟨@dispatch_response st hp (s.withParser t) f.arriving hstate hs hresponse, ?_⟩
      have hview := @filterView_dispatchFrame st (hp.preserves filterView) (s.withParser t) f.arriving.address
        f.arriving.ctrl f.arriving.info
      exact ⟨_, congrArg FilterView.dispatched hview, fun g hg => by rw [List.mem_singleton.mp hg]; rfl⟩
    · exact ⟨⟨[], (List.append_nil _).symm, by simp⟩, [], (List.append_nil _).symm, by simp⟩
  obtain ⟨⟨l, hl, hanswer⟩, hdispatched⟩ := hrx
  obtain ⟨-, repeats, hrepeats, hkind⟩ := @retransmitIfPending_heads st (rxBytes st s (f.octets crc))
  have hfilter := congrArg FilterView.dispatched
    (@retransmitIfPending_agree st (rxBytes st s (f.octets crc))).filter
  refine ⟨⟨l ++ repeats, ?_, fun x hx => ?_⟩, ?_⟩
  · rw [dataIn, hrepeats, hl, List.append_assoc]
  · rcases List.mem_append.mp hx with hx | hx
    · exact hanswer x hx
    · rw [← Bool.not_eq_true]
      intro hs'
      exact absurd (hkind x hx).1 (ne_true_of_eq_false (isSframe_alone hs').1)
  · obtain ⟨l', hl', haddress⟩ := hdispatched
    exact ⟨l', hfilter.trans hl', haddress⟩

end Enquiry

/-- A call with one frame. -/
theorem call_out {e : Endpoint} {c : Call} {f : Frame} (hout : e.out = [])
    (hwires : wires (c.run e.station e.ctx).trace = wires e.ctx.trace ++ [f.wire e.station.crc]) :
    ∃ n, (e.call c).out = [⟨f.wire e.station.crc, n⟩] := by
  rw [Endpoint.call, Endpoint.become, hwires, List.drop_left, List.foldl_cons, List.foldl_nil, Endpoint.emit]
  split_ifs
  · exact ⟨_, congrArg (· ++ _) hout⟩
  · exact ⟨_, congrArg (· ++ _) hout⟩

/-- A busy station with frames outstanding asks by an RNR from its own address. -/
theorem enquiry_busy {s : Ctx} (hstate : s.currentState = .connected) (hbusy : s.localBusy = true) :
    enquiry s = ⟨s.myAddress, sCtrl sRnr s.vr true, []⟩ := by
  simp only [enquiry, hstate, hbusy, if_true]

/-- Whatever has happened before: the enquiry of a busy station is no command to the other one, and
nothing answers it. -/
theorem busy_enquiry_unanswered {w₀ w : World} (hstart : Established w₀) (hrun : Run Exchanges w₀ w)
    (hnear : w.near.ctx.currentState = .connected) (hfar : w.far.ctx.currentState = .connected)
    (hquiet : w.near.out = []) (hbusy : w.near.ctx.localBusy = true)
    (houtstanding : w.near.ctx.va ≠ w.near.ctx.vs)
    (hkept : ¬Exhausted w.near.station (counted w.near.ctx)) :
    ¬w.Polls ∧ ¬w.IsAnswered ∧ ¬w.Recovers := by
  have hjoined := hrun.joined hstart
  set f : Frame := ⟨w.near.ctx.myAddress, sCtrl sRnr w.near.ctx.vr true, []⟩ with hf
  have hrepeats : Repeats w.near.station f w.near.ctx := by
    rw [hf, ← enquiry_busy hnear hbusy]
    exact t1Expired_repeats (Or.inr (Or.inr (Or.inr ⟨hnear, houtstanding⟩))) hkept
  have hline : onLine (t1Expired w.near.station w.near.ctx).trace =
      onLine ((counted w.near.ctx).put w.near.station f).trace := by
    rw [hrepeats]
    exact congrArg LinkView.line (linkView_t1Start _)
  have hwires : wires (t1Expired w.near.station w.near.ctx).trace =
      wires w.near.ctx.trace ++ [f.wire w.near.station.crc] := by
    rw [← wires_onLine, hline, wires_onLine]
    exact wires_obs _ _ _ f
  obtain ⟨n, hout⟩ := @call_out w.near .t1Expired f hquiet hwires
  have harrives : w.heard.far.ctx = dataIn w.far.station w.far.ctx (f.octets w.near.station.crc) := by
    have hone : w.polled.near.out = [⟨f.wire w.near.station.crc, n⟩] := hout
    calc w.heard.far.ctx = (w.far.receive (w.polled.near.out.take w.polled.near.out.length)).ctx := rfl
      _ = (w.far.receive [⟨f.wire w.near.station.crc, n⟩]).ctx := by rw [List.take_length, hone]
      _ = dataIn w.far.station w.far.ctx (f.octets w.near.station.crc) := by
          rw [(receive_eq _ _).1, List.flatMap_singleton]
          rfl
  have hsupervisory : isSframe f.ctrl = true := (sCtrl_fields sRnr w.near.ctx.vr true).1
  have haddress : f.address ≠ w.far.ctx.myAddress := by
    rw [hf, hjoined.far.myAddress, hjoined.near.myAddress]
    exact hjoined.distinct
  have hresponse : isCmd w.far.ctx f.address = false := beq_false_of_ne haddress
  obtain ⟨⟨l, hl, hkind⟩, l', hl', hother⟩ := dataIn_response hjoined.farPassive hjoined.far.index hfar
    w.near.station.crc hsupervisory hresponse
  rw [← harrives] at hl hl'
  have hpolls : ¬w.Polls := by
    rintro ⟨g, hg, hcmd, -⟩
    rw [hl', List.drop_left] at hg
    rw [hother g hg] at hcmd
    exact ne_true_of_eq_false hresponse hcmd
  have hanswered : ¬w.IsAnswered := by
    rintro ⟨x, hx, hfinal, -⟩
    rw [sentSince_eq hl] at hx
    rw [isFinal, hkind x hx, Bool.and_false, Bool.false_and] at hfinal
    exact Bool.false_ne_true hfinal
  exact ⟨hpolls, hanswered, fun h => hpolls h.polls⟩

/-- A station of the mock set-up that has just set up the connection to its peer. -/
def mockEndpoint (address peer : UInt8) : Endpoint :=
  let st := mockStation address 3 threeSlots_pos threeSlots_le
  ⟨st, [.linkSetup peer, .dataIn (Frame.octets crcOpsDefault ⟨peer, uCtrl uUa true, []⟩)].foldl (Call.run st)
    (initCtx st zeroMemory), 0, 0, []⟩

def mockWorld : World := ⟨mockEndpoint 0x01 0x02, mockEndpoint 0x02 0x01⟩

/-- An I-frame is lost, and the station that has sent it becomes busy. -/
def busyWorld : World :=
  ((mockWorld.step (.call (.transmitI (.octets [0x11])))).step (.lose 0)).step (.call (.setLocalBusy true))

theorem mockWorld_established : Established mockWorld := by
  refine ⟨⟨?_, ?_, by decide, mockPlatform_passive, mockPlatform_passive⟩, ?_, ?_⟩
  · exact ⟨by decide +kernel, by decide +kernel, by decide +kernel, by simp [mockWorld, mockEndpoint]⟩
  · exact ⟨by decide +kernel, by decide +kernel, by decide +kernel, by simp [mockWorld, mockEndpoint]⟩
  · exact ⟨by decide +kernel, by decide +kernel, by decide +kernel, by decide +kernel, by decide +kernel,
      by decide +kernel, ⟨rfl, rfl⟩, rfl⟩
  · exact ⟨by decide +kernel, by decide +kernel, by decide +kernel, by decide +kernel, by decide +kernel,
      by decide +kernel, ⟨rfl, rfl⟩, rfl⟩

theorem busyWorld_run : Run Exchanges mockWorld busyWorld := by
  refine .near _ (.near _ (.near _ .start ?_) ?_) ?_
  · exact ⟨by decide, trivial⟩
  · trivial
  · exact ⟨trivial, trivial⟩

theorem busy_enquiry_unanswered_mock : ¬busyWorld.Polls ∧ ¬busyWorld.IsAnswered ∧ ¬busyWorld.Recovers :=
  busy_enquiry_unanswered mockWorld_established busyWorld_run (by decide +kernel) (by decide +kernel)
    (by decide +kernel) (by decide +kernel) (by decide +kernel) fun h => absurd h.2 (by decide +kernel)

/-- The far station answers nothing, and the lost frame stays outstanding. -/
theorem busy_enquiry_lost :
    Established mockWorld ∧ Run Exchanges mockWorld busyWorld ∧
      busyWorld.near.ctx.currentState = .connected ∧ busyWorld.far.ctx.currentState = .connected ∧
      busyWorld.near.out = [] ∧ busyWorld.far.out = [] ∧ busyWorld.near.ctx.localBusy = true ∧
      busyWorld.near.ctx.va ≠ busyWorld.near.ctx.vs ∧
      ¬Exhausted busyWorld.near.station (counted busyWorld.near.ctx) ∧
      sentSince busyWorld.far.ctx busyWorld.heard.far.ctx = [] ∧
      busyWorld.settled.near.ctx.va ≠ busyWorld.settled.near.ctx.vs ∧
      ¬busyWorld.Recovers := by
  refine ⟨mockWorld_established, busyWorld_run, by decide +kernel, by decide +kernel, by decide +kernel,
    by decide +kernel, by decide +kernel, by decide +kernel, fun h => absurd h.2 (by decide +kernel),
    by decide +kernel, by decide +kernel, fun h => ?_⟩
  obtain ⟨x, hx, -⟩ := h.answered
  have hnone : sentSince busyWorld.far.ctx busyWorld.heard.far.ctx = [] := by decide +kernel
  rw [hnone] at hx
  exact List.not_mem_nil hx

end AtcHdlc
