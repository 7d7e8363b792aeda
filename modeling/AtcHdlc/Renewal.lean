import AtcHdlc.Connection

/-! Sessions that end and begin anew. As long as no answer comes late, two connected stations are in the same
session: what one of them counts as acknowledged in it, the other one has given to its application, and
V(R) of each lies in the window of the other. -/

namespace AtcHdlc

open DataLink

section Received

variable {st : Station}

namespace LinkView

/-- An unnumbered frame leaves what the session has received as it is, or begins a session. -/
theorem got_unnumbered {s : Ctx} {f : Received} (hu : isUframe f.ctrl = true) :
    ((linkView s).next st s f).got = (linkView s).got ∨ ((linkView s).next st s f).got = [] := by
  unfold next
  cases hstate : s.currentState with
  | disconnected =>
      simp only [hu, not_true, if_false]
      cases uCmd f.ctrl with
      | sabm => exact Or.inr rfl
      | _ => exact Or.inl rfl
  | connecting =>
      simp only [hu, not_true, if_false]
      cases uCmd f.ctrl with
      | ua =>
          cases ctrlPf f.ctrl with
          | true => exact Or.inr rfl
          | false => exact Or.inl rfl
      | dm => cases ctrlPf f.ctrl <;> exact Or.inl rfl
      | _ => exact Or.inl rfl
  | connected =>
      simp only [hu, if_true, unnumbered]
      cases uCmd f.ctrl with
      | sabm | disc | dm | frmr => exact Or.inr rfl
      | test =>
          cases isCmd s f.address with
          | true => exact Or.inl rfl
          | false => cases f.info <;> exact Or.inl rfl
      | _ => exact Or.inl rfl
  | disconnecting =>
      simp only [hu, not_true, if_false]
      cases uCmd f.ctrl with
      | ua | dm => cases ctrlPf f.ctrl <;> exact Or.inl rfl
      | _ => exact Or.inl rfl
  | frmrError =>
      dsimp only
      split_ifs
      · exact Or.inr rfl
      · exact Or.inl rfl

end LinkView

/-- So does every deed that puts no stream on the line. -/
theorem Deed.received_cases (hp : st.platform.Passive) {call : Call} (hstreams : ¬call.Streams) {s s' : Ctx}
    (h : Deed st call s s') : received s'.trace = received s.trace ∨ received s'.trace = [] := by
  cases h with
  | put f => exact Or.inl (congrArg LinkView.got (linkView_put s f))
  | loose _ _ _ hloose => exact absurd hloose hstreams
  | t1Start => exact Or.inl (congrArg LinkView.got (linkView_t1Start s))
  | t2Stop => exact Or.inl (congrArg LinkView.got (linkView_t2Stop s))
  | event event => exact Or.inl (congrArg LinkView.got (linkView_onEvent hp s event))
  | reset _ => exact Or.inr (congrArg LinkView.got (linkView_resetState s))
  | accept w data _ _ => exact Or.inl (@received_append (filled w s data).trace [.accept data.read] (by simp [Plain]))
  | _ => exact Or.inl rfl

/-- What the session has received is the last that the application was given. -/
def Passed (s : Ctx) : Prop := received s.trace <:+ payloads s.trace

theorem Passed.of_cases {s s' : Ctx} (h : Passed s) (hpayloads : payloads s'.trace = payloads s.trace)
    (hreceived : received s'.trace = received s.trace ∨ received s'.trace = []) : Passed s' := by
  unfold Passed at h ⊢
  rw [hpayloads]
  rcases hreceived with hsame | hnone
  · rw [hsame]
    exact h
  · rw [hnone]
    exact List.nil_suffix

theorem Passed.given {s : Ctx} (h : Passed s) : ∃ before, Given before s := by
  obtain ⟨before, hbefore⟩ := h
  exact ⟨before, hbefore.symm⟩

theorem Given.passed {before : List (List UInt8)} {s : Ctx} (h : Given before s) : Passed s := ⟨before, Eq.symm h⟩

/-- The unnumbered frames of the partner carry nothing for the application. -/
theorem Means.unnumbered {my p : UInt8} {f : Frame} {n : Nat} {m : Msg (List UInt8)} (h : Means my p f n m)
    (hnr : m.nr? = none) : isUframe f.ctrl = true ∧ uCmd f.ctrl ≠ .ui ∧ uCmd f.ctrl ≠ .test := by
  have hctrl {ctrl : UInt8} (heq : f.ctrl = ctrl)
      (hkind : isUframe ctrl = true ∧ uCmd ctrl ≠ .ui ∧ uCmd ctrl ≠ .test) :
      isUframe f.ctrl = true ∧ uCmd f.ctrl ≠ .ui ∧ uCmd f.ctrl ≠ .test := by
    rw [heq]
    exact hkind
  cases h with
  | data | ack => exact absurd hnr (by simp [Msg.nr?])
  | setup heq => exact hctrl (show f.ctrl = uCtrl uSabm true by rw [heq]) (by decide)
  | release heq => exact hctrl (show f.ctrl = uCtrl uDisc true by rw [heq]) (by decide)
  | accept heq => exact hctrl (show f.ctrl = uCtrl uUa true by rw [heq]) (by decide)
  | refuse heq => exact hctrl (show f.ctrl = uCtrl uDm true by rw [heq]) (by decide)
  | reject haddr heq hinfo => exact hctrl heq (by decide)

theorem Passed.dispatch (hp : st.platform.Passive) (hdata : st.platform.onData.isSome = true) {s : Ctx}
    (h : Passed s) {my p : UInt8} {f : Frame} {n : Nat} {m : Msg (List UInt8)} (hm : Means my p f n m) :
    Passed (f.arriving.dispatch st s) := by
  cases hnr : m.nr? with
  | some r =>
      obtain ⟨before, hgiven⟩ := h.given
      have hu : isUframe f.arriving.ctrl = false := hm.numbered (by rw [hnr]; rfl)
      exact (hgiven.dispatch hp hdata hu).passed
  | none =>
      obtain ⟨hu, hui, htest⟩ := hm.unnumbered hnr
      have hu : isUframe f.arriving.ctrl = true := hu
      have hnot : ¬Hands s f.arriving := by
        have hui : uCmd f.arriving.ctrl ≠ .ui := hui
        have htest : uCmd f.arriving.ctrl ≠ .test := htest
        unfold Hands
        cases s.currentState <;> simp [hu, hui, htest]
      refine h.of_cases ?_ ?_
      · rw [payloads_dispatch hp, handed, if_neg fun hand => hnot hand.2, List.append_nil]
      · have hview := congrArg LinkView.got (dispatchFrame_linkView hp s f.arriving)
        have hgot := @LinkView.got_unnumbered st s f.arriving hu
        rw [← hview] at hgot
        exact hgot

end Received

/-- The slots hold the open payloads, and the application has been given what the session has received. -/
structure Bears (e : Endpoint) : Prop where
  kept : Kept (windowOf e.station) e.ctx
  passed : Passed e.ctx

section Bears

variable {peer : UInt8} {bound : Nat} {e : Endpoint} {x x' : Peer (List UInt8)}

/-- Without a transmit window nothing is ever open. -/
theorem Reflects.kept_windowless {st : Station} {s : Ctx} (h : Reflects st peer bound s x)
    (hnone : st.txWindow = none) : Kept (windowOf st) s := by
  intro k hk hopen
  obtain ⟨hva, hvs⟩ := h.windowed hnone
  have hacked := h.inv.va
  have hsent := h.inv.vs
  have hle := h.inv.acked_le
  have hlt := h.inv.lt_mod8
  rw [hva] at hacked
  rw [hvs] at hsent
  have hsame := Serial.eq_of_mod_eq (m := mod8) (Nat.le_refl _) (by simp [mod8]) hle hlt (hacked.symm.trans hsent)
  omega

/-- Every call keeps the slots. -/
theorem Bears.run_kept (hp : e.station.platform.Passive) (h : Bears e) (hstands : Stands peer bound e x) {c : Call}
    (hlegal : c.Legal) (hspares : Spares e.station e.ctx c) {e' : Endpoint} (hctx : e'.ctx = c.run e.station e.ctx)
    (hstation : e'.station = e.station) (hstands' : Stands peer bound e' x') : Kept (windowOf e'.station) e'.ctx := by
  cases htw : e.station.txWindow with
  | none => exact hstands'.reflects.kept_windowless (by rw [hstation]; exact htw)
  | some tw =>
      have hinv := hstands.reflects.inv
      have hkept := h.kept
      rw [windowOf_eq htw] at hinv hkept
      rw [hstation, hctx, windowOf_eq htw]
      exact Call.kept htw hp hkept hinv hlegal hspares

theorem Connects.legal {w : World} {c : Call} (h : Connects w (.call c)) :
    c.Legal ∧ (∀ bytes, c ≠ .dataIn bytes) ∧ ¬c.Streams := by
  cases c with
  | linkSetup | disconnect | setLocalBusy | t1Expired | t2Expired => exact ⟨trivial, by simp, id⟩
  | transmitI data => exact ⟨h, by simp, id⟩
  | _ => exact h.elim

theorem Bears.call (hp : e.station.platform.Passive) (h : Bears e) (hstands : Stands peer bound e x) {w : World}
    {c : Call} (hc : Connects w (.call c)) (hspares : Spares e.station e.ctx c)
    (hstands' : Stands peer bound (e.call c) x') : Bears (e.call c) := by
  obtain ⟨hlegal, hin, hstreams⟩ := hc.legal
  obtain ⟨hctx, hstation⟩ : (e.call c).ctx = c.run e.station e.ctx ∧ (e.call c).station = e.station := become_eq e _
  refine ⟨h.run_kept hp hstands hlegal hspares hctx hstation hstands', ?_⟩
  rw [hctx]
  refine h.passed.of_cases (Call.payloads_eq hp e.ctx hlegal hin) ?_
  refine (Call.deeds e.station e.ctx hlegal hin).induct
    (P := fun t => received t.trace = received e.ctx.trace ∨ received t.trace = []) (fun s s' hd ht => ?_) (Or.inl rfl)
  rcases hd.received_cases hp hstreams with hsame | hnone
  · rw [hsame]
    exact ht
  · exact Or.inr hnone

/-- One frame of the partner arrives. -/
theorem Bears.receive_one (hp : e.station.platform.Passive) (hdata : e.station.platform.onData.isSome = true)
    (h : Bears e) (hstands : Stands peer bound e x) {sender : Station} (hcrc : sender.crc = e.station.crc) {my : UInt8}
    {flight : Flight} {m : Msg (List UInt8)} (hm : Carries sender my flight m)
    (hstands' : Stands peer bound (e.receive [flight]) x') : Bears (e.receive [flight]) := by
  obtain ⟨hctx, hstation⟩ := receive_eq e [flight]
  obtain ⟨f, hwire, hmeans⟩ := hm
  have hoctets : [flight].flatMap (fun f => f.wire.octets) = f.octets e.station.crc := by
    rw [List.flatMap_singleton, hwire, hcrc]
    rfl
  rw [hoctets] at hctx
  refine ⟨h.run_kept hp hstands (c := .dataIn (f.octets e.station.crc)) trivial trivial hctx hstation hstands', ?_⟩
  have hinv : ∀ w, e.station.txWindow = some w → WindowInv w (rxBytes e.station e.ctx (f.octets e.station.crc)) := by
    intro w hw
    have hbefore := hstands.reflects.inv
    rw [windowOf_eq hw] at hbefore
    exact hbefore.rxBytes hp _
  have hread : Passed (rxBytes e.station e.ctx (f.octets e.station.crc)) := by
    obtain ⟨t, hread⟩ := @rxBytes_octets e.station e.ctx hstands.index f
    rw [hread]
    have hbefore : Passed (e.ctx.withParser t) := h.passed
    split_ifs
    · exact hbefore.dispatch hp hdata hmeans
    · exact hbefore
  rw [hctx, AtcHdlc.dataIn]
  exact hread.of_cases (retransmitIfPending_payloads hinv) (Or.inl (retransmitIfPending_received _))

/-- Nothing arrives. -/
theorem Bears.receive_nil (h : Bears e) (hstands : Stands peer bound e x) : Bears (e.receive []) := by
  obtain ⟨hctx, hstation⟩ := receive_eq e []
  have hidle : dataIn e.station e.ctx [] = e.ctx := dataIn_nil hstands.pending
  have hsame : (e.receive []).ctx = e.ctx := hctx.trans hidle
  constructor
  · rw [hstation, hsame]
    exact h.kept
  · rw [hsame]
    exact h.passed

end Bears

/-! ### Two stations -/

/-- Payloads that the 16-bit lengths of the receiver can count. -/
def Short : Move → Prop
  | .call (.transmitI data) => data.len ≤ 65535
  | _ => True

/-- What the station has dropped from its window as acknowledged in this session. -/
def dropped (s : Ctx) : List (List UInt8) :=
  (session s.trace).sent.take ((session s.trace).sent.length - outstanding s)

/-- The direction from the near to the far station, when both are connected: V(R) of the far station lies between
V(A) and V(S) of the near one, and what the near one has dropped the far one has received, in its current
session, and given to its application. -/
structure Agrees (w : World) : Prop where
  window : (w.far.ctx.vr + mod8 - w.near.ctx.va) % mod8 ≤ (w.near.ctx.vs + mod8 - w.near.ctx.va) % mod8
  dropped : dropped w.near.ctx <+: received w.far.ctx.trace
  given : received w.far.ctx.trace <:+ payloads w.far.ctx.trace

/-- The near application has been given what the far station has dropped. -/
theorem Agrees.subset {w : World} (h : Agrees w.swap) {l l' : List (List UInt8)} (hdropped : AtcHdlc.dropped w.far.ctx = l)
    (hgiven : payloads w.near.ctx.trace = l') : l ⊆ l' := by
  rw [← hdropped, ← hgiven]
  exact List.Subset.trans h.dropped.subset h.given.subset

/-- What holds along a run in which no answer comes late. -/
structure Renews (w : World) : Prop where
  wired : Wired w
  nearData : w.near.station.platform.onData.isSome = true
  farData : w.far.station.platform.onData.isSome = true
  related : ∃ n, Related sessionRules 65535 w n
  near : Bears w.near
  far : Bears w.far

theorem Renews.swap {w : World} (h : Renews w) : Renews w.swap := by
  obtain ⟨n, hrelated⟩ := h.related
  exact ⟨h.wired.swap, h.farData, h.nearData, ⟨n.swap, hrelated.swap⟩, h.far, h.near⟩

section Runs

variable {w : World} {n : Net (List UInt8)}

/-- What the near station bears after its move. -/
theorem Renews.near_step (h : Renews w) (hrelated : Related sessionRules 65535 w n) {m : Move} (hm : Connects w m)
    (hprotects : Protects w m) {n' : Net (List UInt8)} (hrelated' : Related sessionRules 65535 (w.step m) n') :
    Bears (w.step m).near := by
  have hnear := hrelated'.near
  rw [(step_stations w m).2] at hnear
  cases m with
  | call c => exact h.near.call h.wired.nearPassive hrelated.near hm hprotects hnear
  | lose i => exact ⟨h.near.kept, h.near.passed⟩
  | deliver k =>
      obtain rfl : k = 1 := hm
      have hstep : (w.step (.deliver 1)).near = w.near.receive (w.far.out.take 1) := rfl
      rw [hstep] at hnear ⊢
      have hout := hrelated.far.out
      cases hflights : w.far.out with
      | nil => exact h.near.receive_nil hrelated.near
      | cons flight flights =>
          rw [hflights] at hout hnear
          obtain ⟨m, -, hm, -, -⟩ := List.forall₂_cons_left_iff.mp hout
          have htake : (flight :: flights).take 1 = [flight] := by rw [List.take_succ_cons, List.take_zero]
          rw [htake] at hnear ⊢
          exact h.near.receive_one h.wired.nearPassive h.nearData hrelated.near h.wired.crc.symm hm hnear

theorem Renews.step (h : Renews w) {m : Move} (hm : Connects w m) (hpunctual : Punctual w m)
    (hprotects : Protects w m) (hshort : Short m) : Renews (w.step m) := by
  obtain ⟨n, hrelated⟩ := h.related
  obtain ⟨hnear, hfar⟩ := step_stations w m
  obtain ⟨n', -, hrelated'⟩ := hrelated.step rfl h.wired hm hpunctual (fun _ => h.near.kept) (fun _ => trivial)
    (fun _ => trivial) (fun _ _ => trivial) fun data heq _ => by
      rw [heq] at hshort
      exact hshort
  refine ⟨h.wired.step m, ?_, ?_, ⟨n', hrelated'⟩, h.near_step hrelated hm hprotects hrelated', ?_⟩
  · rw [hnear]
    exact h.nearData
  · rw [hfar]
    exact h.farData
  · cases m with
    | call c => exact h.far
    | lose i => exact h.far
    | deliver k => exact ⟨h.far.kept, h.far.passed⟩

theorem initial_bears (st : Station) (mem : Memory) (peer : UInt8) : Bears (.initial st mem peer) :=
  ⟨fun k hk _ => absurd hk (Nat.not_lt_zero k), List.nil_suffix⟩

theorem Run.renews {w₀ : World} (hstart : Initial w₀) (hnear : w₀.near.station.platform.onData.isSome = true)
    (hfar : w₀.far.station.platform.onData.isSome = true)
    (hrun : Run (fun w m => Connects w m ∧ Punctual w m ∧ Protects w m ∧ Short m) w₀ w) : Renews w := by
  obtain ⟨mem, hnear'⟩ := hstart.near
  obtain ⟨mem', hfar'⟩ := hstart.far
  refine hrun.invariant (P := Renews) ⟨hstart.wired, hnear, hfar, ⟨_, hstart.related rfl _⟩, ?_, ?_⟩
    (fun _ => Renews.swap) fun _ _ h hm => h.step hm.1 hm.2.1 hm.2.2.1 hm.2.2.2
  · rw [hnear']
    exact initial_bears _ mem _
  · rw [hfar']
    exact initial_bears _ mem' _

theorem Renews.agrees (h : Renews w) (hnear : w.near.ctx.currentState = .connected)
    (hfar : w.far.ctx.currentState = .connected) : Agrees w := by
  obtain ⟨n, hrelated⟩ := h.related
  have hreflects := hrelated.near.reflects
  have hreflects' := hrelated.far.reflects
  have hflow := hrelated.inv.near.flow (hreflects.link.trans (linkOf_up.mpr hnear))
    (hreflects'.link.trans (linkOf_up.mpr hfar))
  have hinv := hreflects.inv
  have hacked := hflow.acked_le
  have hgot := hflow.got_le
  have hlt := hinv.lt_mod8
  rw [hreflects.acked] at hacked
  rw [hreflects.sent_length] at hgot
  refine ⟨?_, ?_, h.far.passed⟩
  · rw [hreflects'.vr, hinv.va, hinv.vs]
    simp only [mod8] at hlt ⊢
    omega
  · have hsent : n.near.sent = (session w.near.ctx.trace).sent := by
      rw [hreflects.sent]
      exact (List.map_congr_left fun payload hmem => heardInfo_of_le (hreflects.bounded payload hmem)).trans
        (List.map_id _)
    have htaken := hflow.got trivial
    rw [hsent, hreflects'.got] at htaken
    have hcount : (session w.near.ctx.trace).sent.length - outstanding w.near.ctx =
        (session w.near.ctx.trace).acked := by
      rw [outstanding_eq hinv.va hinv.vs hinv.acked_le hinv.lt_mod8]
      have hle := hinv.acked_le
      omega
    rw [AtcHdlc.dropped, hcount, htaken]
    refine List.take_prefix_take_left ?_
    rw [← hreflects'.got]
    exact hacked

end Runs

/-- In every run in which no answer comes late and no payload is written over a frame that is still open, two
connected stations agree on their session, in both directions. -/
theorem session_agreement {w₀ w : World} (hstart : Initial w₀)
    (hnear : w₀.near.station.platform.onData.isSome = true) (hfar : w₀.far.station.platform.onData.isSome = true)
    (hrun : Run (fun w m => Connects w m ∧ Punctual w m ∧ Protects w m ∧ Short m) w₀ w)
    (hup : w.near.ctx.currentState = .connected) (hup' : w.far.ctx.currentState = .connected) :
    Agrees w ∧ Agrees w.swap := by
  have hrenews := hrun.renews hstart hnear hfar
  exact ⟨hrenews.agrees hup hup', hrenews.swap.agrees hup' hup⟩

/-- A session with one payload, which arrives and is acknowledged. -/
def acknowledgedWorld : World :=
  ((((((blankWorld.step (.call (.linkSetup 0x02))).stepFar (.deliver 1)).step (.deliver 1)).accept [0x11]).stepFar
    (.deliver 1)).stepFar (.call .t2Expired)).step (.deliver 1)

/-- The first SABM is only late, and the near station is connected before the second one arrives. -/
def overtakenWorld : World :=
  ((((((blankWorld.step (.call (.linkSetup 0x02))).step (.call .t1Expired)).stepFar (.deliver 1)).stepFar
    (.call (.transmitI (.octets [0x11])))).step (.deliver 1)).step (.deliver 1)).step (.call .t2Expired)

/-- The far station begins anew, its answer is lost, and the acknowledgement of the payload before is taken for
that of the next one. -/
def confusedWorld : World :=
  ((((overtakenWorld.stepFar (.deliver 1)).stepFar (.lose 0)).stepFar (.call (.transmitI (.octets [0x22])))).stepFar
    (.deliver 1)).step (.deliver 1)

theorem session_agreement_mock : Agrees acknowledgedWorld ∧ Agrees acknowledgedWorld.swap := by
  refine session_agreement blankWorld_initial rfl rfl ?_ (by decide +kernel) (by decide +kernel)
  refine .near _ (.far _ (.far _ (.near _ (.near _ (.far _ (.near _ .start ?_) ?_) ?_) ?_) ?_) ?_) ?_
  · exact ⟨rfl, trivial, trivial, trivial⟩
  · exact ⟨rfl, fun hstate => absurd hstate (by decide +kernel), trivial, trivial⟩
  · refine ⟨rfl, fun _ => ?_, trivial, trivial⟩
    decide +kernel
  · refine ⟨Or.inl rfl, trivial, ?_, ?_⟩
    · decide +kernel
    · show (1 : Nat) ≤ 65535
      decide
  · exact ⟨rfl, fun hstate => absurd hstate (by decide +kernel), trivial, trivial⟩
  · refine ⟨?_, ?_, trivial, trivial⟩
    · show (_ : Bool) = true
      decide +kernel
    · show (_ : State) = .connected
      decide +kernel
  · exact ⟨rfl, fun hstate => absurd hstate (by decide +kernel), trivial, trivial⟩

/-- The near station is never given a payload that the far one has dropped as acknowledged. -/
theorem late_sabm_loses_payload :
    Initial blankWorld ∧ Run Connects blankWorld confusedWorld ∧
      confusedWorld.near.ctx.currentState = .connected ∧ confusedWorld.far.ctx.currentState = .connected ∧
      (∀ flight ∈ confusedWorld.near.out ++ confusedWorld.far.out, isUframe flight.wire.ctrl = false) ∧
      dropped confusedWorld.far.ctx = [[0x22]] ∧ payloads confusedWorld.near.ctx.trace = [[0x11]] ∧
      ¬Agrees confusedWorld.swap := by
  have hdropped : dropped confusedWorld.far.ctx = [[0x22]] := by decide +kernel
  have hgiven : payloads confusedWorld.near.ctx.trace = [[0x11]] := by decide +kernel
  refine ⟨blankWorld_initial, ?_, by decide +kernel, by decide +kernel, by decide +kernel, hdropped, hgiven, fun h => ?_⟩
  · refine .near _ (.far _ (.far _ (.far _ (.far _ (.near _ (.near _ (.near _ (.far _ (.far _ (.near _
      (.near _ .start ?_) ?_) ?_) ?_) ?_) ?_) ?_) ?_) ?_) ?_) ?_) ?_
    · exact rfl
    · exact rfl
    · exact rfl
    · exact Or.inl rfl
    · exact rfl
    · exact rfl
    · show (_ : Bool) = true
      decide +kernel
    · exact rfl
    · trivial
    · exact Or.inl rfl
    · exact rfl
    · exact rfl
  · exact absurd (h.subset hdropped hgiven) (by decide)

end AtcHdlc
