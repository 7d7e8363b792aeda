import AtcHdlc.Lib.Convergence
import AtcHdlc.Transfer

/-! The whole life of a connection. Set-up, release and the expiries of T1 in every state are steps of the
peers that the stations stand for, as long as no answer is taken for that to a later command; so what
holds along every run of two peers holds along the runs of two stations that link up, talk and part as
often as they like. -/

namespace AtcHdlc

open DataLink

section Acts

variable {st : Station} {peer : UInt8} {bound : Nat} {e : Endpoint} {x : Peer (List UInt8)} {R : Rules}

/-- What the station has done is what its peer may do. -/
def Acts (peer : UInt8) (bound : Nat) (R : Rules) (x : Peer (List UInt8)) (e' : Endpoint) : Prop :=
  ∃ x', Stands peer bound e' x' ∧ ∀ y, Relation.ReflTransGen (Step R) ⟨x, y⟩ ⟨x', y⟩

theorem Says.acts {e' : Endpoint} (h : Says peer bound R x e') : Acts peer bound R x e' := by
  obtain ⟨x', hstands, -, hchats⟩ := h
  exact ⟨x', hstands, fun y => chat_step (hchats y)⟩

/-- A command: the link state changes, and one frame is put on the line. -/
theorem Stands.acts_command (h : Stands peer bound e x) {t : Ctx} {state : State}
    {m : Nat → Msg (List UInt8)} {f : Frame} (hl : Leaves e.station e.ctx t state [f])
    (hcommand : isCommand f.ctrl = true)
    (hm : Means e.station.config.address peer f (x.commands + 1) (m (x.commands + 1)))
    (hact : ∀ y, Act R ⟨x, y⟩ ⟨x.command (linkOf state) m, y⟩) : Acts peer bound R x (e.become t) :=
  ⟨x.command (linkOf state) m, h.become_command (h.reflects.leaves hl rfl) (hl.index.trans h.index)
    (hl.pending.trans h.pending) hcommand hl.wires hm, fun y => .single (Or.inl (hact y))⟩

/-- A call that gives a command and changes the link state. -/
theorem Stands.acts_change (hp : e.station.platform.Passive) (h : Stands peer bound e x) {state : State}
    {event : Event} {m : Nat → Msg (List UInt8)} {f : Frame} (hne : e.ctx.currentState ≠ state)
    (hcommand : isCommand f.ctrl = true)
    (hm : Means e.station.config.address peer f (x.commands + 1) (m (x.commands + 1)))
    (hact : ∀ y, Act R ⟨x, y⟩ ⟨x.command (linkOf state) m, y⟩) :
    Acts peer bound R x (e.become (setState e.station (t1Start e.station (e.ctx.put e.station f)) state event)) := by
  have hput : Leaves e.station e.ctx (e.ctx.put e.station f) e.ctx.currentState [f] := .put e.ctx f
  have hstart := hput.trans (.t1Start (e.ctx.put e.station f))
  exact h.acts_command (hstart.trans (.setState hp (t1Start e.station (e.ctx.put e.station f)) event hne))
    hcommand hm hact

theorem Stands.acts_nothing (h : Stands peer bound e x) {t : Ctx}
    (hl : Leaves e.station e.ctx t e.ctx.currentState []) : Acts peer bound R x (e.become t) :=
  (h.says_nothing hl).acts

theorem Leaves.same (s : Ctx) : Leaves st s s s.currentState [] :=
  .fields s s (.of_trace rfl rfl rfl rfl rfl rfl rfl) rfl rfl rfl

theorem Stands.acts_linkSetup (hp : e.station.platform.Passive) (h : Stands peer bound e x) :
    Acts peer bound R x (e.call (.linkSetup peer)) := by
  have hcall : e.call (.linkSetup peer) = e.become (linkSetup e.station e.ctx peer).2 := rfl
  have hsame : { e.ctx with peerAddress := peer } = e.ctx := by rw [← h.reflects.peerAddress]
  rw [hcall]
  unfold linkSetup
  by_cases hdown : e.ctx.currentState = .disconnected
  · rw [if_neg (not_not.mpr hdown)]
    simp only [sendU_eq, hsame]
    have hne : e.ctx.currentState ≠ .connecting := by
      rw [hdown]
      decide
    have hlink : x.link = .down := h.reflects.link.trans (by rw [hdown]; rfl)
    exact h.acts_change hp hne rfl (.setup rfl) fun y => .setup (Or.inl hlink)
  · rw [if_pos hdown]
    exact h.acts_nothing (.same e.ctx)

theorem Stands.acts_disconnect (hp : e.station.platform.Passive) (h : Stands peer bound e x) :
    Acts peer bound R x (e.call .disconnect) := by
  have hcall : e.call .disconnect = e.become (disconnect e.station e.ctx).2 := rfl
  rw [hcall]
  unfold disconnect
  by_cases hlink : e.ctx.currentState ≠ .connected ∧ e.ctx.currentState ≠ .frmrError
  · rw [if_pos hlink]
    exact h.acts_nothing (.same e.ctx)
  · rw [if_neg hlink]
    simp only [sendU_eq, h.reflects.peerAddress]
    have hopen : e.ctx.currentState = .connected ∨ e.ctx.currentState = .frmrError := by
      by_cases hup : e.ctx.currentState = .connected
      · exact Or.inl hup
      · exact Or.inr (not_not.mp fun hbroken => hlink ⟨hup, hbroken⟩)
    have hne : e.ctx.currentState ≠ .disconnecting := by
      rcases hopen with hopen | hopen <;> rw [hopen] <;> decide
    have hlink : x.link = .up ∨ x.link = .broken := by
      rw [h.reflects.link]
      rcases hopen with hopen | hopen
      · exact Or.inl (by rw [hopen]; rfl)
      · exact Or.inr (by rw [hopen]; rfl)
    refine h.acts_change hp hne rfl (.release rfl) fun y => .release ?_
    rcases hlink with hlink | hlink
    · exact Or.inl hlink
    · exact Or.inr (Or.inl hlink)

/-- `reset_state` puts nothing on the line. -/
theorem wires_resetState (s : Ctx) : wires (resetState st s).trace = wires s.trace := by
  rw [← wires_onLine, ← wires_onLine s.trace]
  exact congrArg (fun v => wires (LinkView.line v)) (linkView_resetState s)

/-- The retries are exhausted. -/
theorem Stands.acts_giveUp (hp : e.station.platform.Passive) (h : Stands peer bound e x) (htimed : R.timed)
    (hclear : x.link = .opening → ∀ n, .setup n ∉ x.out) :
    Acts peer bound R x (e.become
      (resetState e.station (setState e.station (counted e.ctx) .disconnected .linkFailure))) := by
  have hcounted : Leaves e.station e.ctx (counted e.ctx) e.ctx.currentState [] :=
    .fields e.ctx _ (.of_trace rfl rfl rfl rfl rfl rfl rfl) rfl rfl rfl
  have hdown : Leaves e.station e.ctx (setState e.station (counted e.ctx) .disconnected .linkFailure)
      .disconnected [] := by
    by_cases hne : e.ctx.currentState = .disconnected
    · have hsame : setState e.station (counted e.ctx) .disconnected .linkFailure = counted e.ctx := by
        unfold setState
        rw [if_neg]
        rintro (hchanged | hevent)
        · exact hchanged hne
        · exact absurd hevent (by decide)
      rw [hsame, ← hne]
      exact hcounted
    · exact hcounted.trans (.setState hp (counted e.ctx) .linkFailure hne)
  generalize setState e.station (counted e.ctx) .disconnected .linkFailure = t at hdown
  have hreflects : Reflects e.station peer bound t (x.goto .down) := h.reflects.leaves hdown rfl
  have hindex : (resetState e.station t).rxIndex = t.rxIndex := by rw [resetState_eq]
  refine ⟨(x.goto .down).fresh, h.become hreflects.reset ?_ ?_ ?_, fun y => .single (Or.inl (.giveUp htimed hclear))⟩
  · exact hindex.trans (hdown.index.trans h.index)
  · exact (resetState_pending t).trans (hdown.pending.trans h.pending)
  · exact .silent rfl rfl ((wires_resetState t).trans (hdown.wires.trans (List.append_nil _))) rfl

/-- What a station that waits says again. -/
theorem Stands.acts_repeats (h : Stands peer bound e x) (htimed : R.timed)
    (hwait : e.ctx.currentState = .connecting ∨ e.ctx.currentState = .disconnecting ∨
      e.ctx.currentState = .frmrError) :
    Acts peer bound R x (e.become (t1Start e.station ((counted e.ctx).put e.station (enquiry e.ctx)))) := by
  have hcounted : Leaves e.station e.ctx (counted e.ctx) e.ctx.currentState [] :=
    .fields e.ctx _ (.of_trace rfl rfl rfl rfl rfl rfl rfl) rfl rfl rfl
  have hl (f : Frame) : Leaves e.station e.ctx (t1Start e.station ((counted e.ctx).put e.station f))
      e.ctx.currentState [f] := (hcounted.trans (.put _ f)).trans (.t1Start _)
  have hlink := h.reflects.link
  rcases hwait with hstate | hstate | hstate
  · have henquiry : enquiry e.ctx = ⟨e.ctx.peerAddress, uCtrl uSabm true, []⟩ := by simp only [enquiry, hstate]
    have hopening : x.link = .opening := hlink.trans (by rw [hstate]; rfl)
    have hset : Leaves e.station e.ctx _ .connecting [enquiry e.ctx] := hstate ▸ hl (enquiry e.ctx)
    rw [henquiry, h.reflects.peerAddress] at hset ⊢
    exact h.acts_command hset rfl (.setup rfl) fun y => .setup (Or.inr ⟨htimed, hopening⟩)
  · have henquiry : enquiry e.ctx = ⟨e.ctx.peerAddress, uCtrl uDisc true, []⟩ := by simp only [enquiry, hstate]
    have hclosing : x.link = .closing := hlink.trans (by rw [hstate]; rfl)
    have hset : Leaves e.station e.ctx _ .disconnecting [enquiry e.ctx] := hstate ▸ hl (enquiry e.ctx)
    rw [henquiry, h.reflects.peerAddress] at hset ⊢
    exact h.acts_command hset rfl (.release rfl) fun y => .release (Or.inr (Or.inr ⟨htimed, hclosing⟩))
  · have henquiry : enquiry e.ctx = ⟨e.ctx.myAddress, uCtrl uFrmr false, frmrInfo e.ctx⟩ := by
      simp only [enquiry, hstate]
    have hbroken : x.link = .broken := hlink.trans (by rw [hstate]; rfl)
    have hset := hl (enquiry e.ctx)
    refine ⟨x.say .reject, h.become (h.reflects.leaves hset ?_) (hset.index.trans h.index)
      (hset.pending.trans h.pending) ?_, fun y => .single (Or.inl (.complain htimed hbroken))⟩
    · rw [← hlink]
      rfl
    · refine .one rfl rfl (enquiry e.ctx) _ hset.wires rfl ?_ rfl
      rw [henquiry, h.reflects.myAddress]
      exact .reject rfl rfl rfl

/-- T1 expires, in whatever state. -/
theorem Stands.acts_t1Expired (hp : e.station.platform.Passive) (h : Stands peer bound e x) (htimed : R.timed)
    (hclear : Exhausted e.station (counted e.ctx) → x.link = .opening → ∀ n, .setup n ∉ x.out) :
    Acts peer bound R x (e.call .t1Expired) := by
  have hcall : e.call .t1Expired = e.become (t1Expired e.station e.ctx) := rfl
  by_cases hspent : Exhausted e.station (counted e.ctx)
  · have hgone : t1Expired e.station e.ctx =
        resetState e.station (setState e.station (counted e.ctx) .disconnected .linkFailure) := if_pos hspent
    rw [hcall, hgone]
    exact h.acts_giveUp hp htimed (hclear hspent)
  have hrepeats (hwait : e.ctx.currentState = .connecting ∨ e.ctx.currentState = .disconnecting ∨
      e.ctx.currentState = .frmrError) : Acts peer bound R x (e.call .t1Expired) := by
    have hagain : t1Expired e.station e.ctx =
        t1Start e.station ((counted e.ctx).put e.station (enquiry e.ctx)) :=
      t1Expired_repeats (hwait.imp_right (Or.imp_right Or.inl)) hspent
    rw [hcall, hagain]
    exact h.acts_repeats htimed hwait
  cases hstate : e.ctx.currentState with
  | connecting => exact hrepeats (Or.inl hstate)
  | disconnecting => exact hrepeats (Or.inr (Or.inl hstate))
  | frmrError => exact hrepeats (Or.inr (Or.inr hstate))
  | connected => exact (h.says_t1Expired (h.reflects.link.trans (by rw [hstate]; rfl)) hspent htimed).acts
  | disconnected =>
      have hidle : t1Expired e.station e.ctx = counted e.ctx := by
        refine t1Expired_idle ?_ hspent
        simp [Awaiting, hstate]
      rw [hcall, hidle]
      exact h.acts_nothing (.fields e.ctx _ (.of_trace rfl rfl rfl rfl rfl rfl rfl) rfl rfl rfl)

end Acts

section Hear

variable {st : Station} {peer : UInt8} {bound : Nat} {e : Endpoint} {x : Peer (List UInt8)} {R : Rules}
  {flight : Flight}

theorem Carries.setup {n : Nat} (h : Carries st peer flight (.setup n)) : flight.wire.ctrl = uCtrl uSabm true := by
  obtain ⟨f, hwire, hmeans⟩ := h
  cases hmeans with
  | setup heq => rw [hwire, heq, Frame.wire]

theorem Carries.accept {n : Nat} (h : Carries st peer flight (.accept n)) :
    flight.wire.ctrl = uCtrl uUa true ∧ flight.number = n := by
  obtain ⟨f, hwire, hmeans⟩ := h
  cases hmeans with
  | accept heq => exact ⟨by rw [hwire, heq, Frame.wire], rfl⟩

theorem Carries.refuse {n : Nat} (h : Carries st peer flight (.refuse n)) : flight.wire.ctrl = uCtrl uDm true := by
  obtain ⟨f, hwire, hmeans⟩ := h
  cases hmeans with
  | refuse heq => rw [hwire, heq, Frame.wire]

/-- Whatever is on its way as a message is there as a frame. -/
theorem exists_flight {flights : List Flight} {ms : List (Msg (List UInt8))}
    (h : List.Forall₂ (Carries st peer) flights ms) {m : Msg (List UInt8)} (hm : m ∈ ms) :
    ∃ g ∈ flights, Carries st peer g m := by
  induction h with
  | nil => exact absurd hm List.not_mem_nil
  | cons hfirst _ ih =>
      rcases List.mem_cons.mp hm with rfl | hm
      · exact ⟨_, List.mem_cons_self, hfirst⟩
      · obtain ⟨g, hg, hcarries⟩ := ih hm
        exact ⟨g, List.mem_cons_of_mem _ hg, hcarries⟩

/-- A frame arrives with a call of its own. -/
theorem Stands.receive_one (hp : e.station.platform.Passive) (hR : R.modulus = mod8) (h : Stands peer bound e x)
    (hkept : R.exact → Kept (windowOf e.station) e.ctx) {sender : Station} (hcrc : sender.crc = e.station.crc)
    (hpeer : sender.config.address = peer) {m : Msg (List UInt8)}
    (hm : Carries sender e.station.config.address flight m) {y : Peer (List UInt8)} {rest : List (Msg (List UInt8))}
    (hout : y.out = m :: rest) (haccept : x.link = .opening → ∀ n, m = .accept n → n = x.commands)
    (hrefuse : x.link = .opening → ∀ n, m = .refuse n → ∀ n', .setup n' ∉ x.out)
    (hreject : m = .reject → R.lossy) :
    ∃ x', Stands peer bound (e.receive [flight]) x' ∧
      Relation.ReflTransGen (Chat R) ⟨x, y⟩ ⟨x', { y with out := rest }⟩ := by
  have hheard := h.hear hm
  obtain ⟨f, hwire, hmeans⟩ := hm
  rw [hpeer] at hmeans
  have hunarmed : ArmedIn e.station e.ctx x := fun hpending => by
    rw [h.pending] at hpending
    exact absurd hpending (by decide)
  obtain ⟨x₁, hx₁, harmed, hindex, hup, hspoken, harrives⟩ :=
    h.reflects.arrive hp hR hunarmed h.index hmeans fun hpending => by
      rw [h.pending] at hpending
      exact absurd hpending (by decide)
  have hchats := harrives y rest hout haccept hrefuse hreject
  obtain ⟨x', hx', hpending, hindex', hspoken', htalks⟩ := hx₁.retransmit harmed (hup h.pending)
    fun he => (hkept he).rxBytes hp _
  have hoctets : [flight].flatMap (fun f => f.wire.octets) = f.octets e.station.crc := by
    rw [List.flatMap_singleton, hwire, hcrc]
    rfl
  obtain ⟨heard, hhear⟩ := foldl_hear e [flight]
  have hhear' : e.hear flight = { e with heard := heard } := hhear
  refine ⟨x', ?_, hchats.trans (talk_chat (htalks _))⟩
  rw [hhear'] at hheard
  rw [Endpoint.receive, hhear, hoctets]
  exact hheard.become hx' (hindex'.trans hindex) hpending (hspoken.trans hspoken')

end Hear

/-! ### The moves of a connection -/

/-- What two stations do that link up, talk and part. One frame arrives at a time. -/
def Connects (w : World) : Move → Prop
  | .call (.linkSetup peerAddr) => peerAddr = w.far.station.config.address
  | .call (.transmitI data) => data.NonNull
  | .call .t1Expired => w.near.ctx.t1Active = true
  | .call .t2Expired => w.near.ctx.t2Active = true
  | .call .disconnect | .call (.setLocalBusy _) | .lose _ => True
  | .deliver n => n = 1
  | _ => False

/-- No UA and no DM is taken for the answer to a later command, no set-up is given up while a SABM is on its
way, and T2 expires in a session only. -/
def Punctual (w : World) : Move → Prop
  | .call .t1Expired => Exhausted w.near.station (counted w.near.ctx) → w.near.ctx.currentState = .connecting →
      ∀ g ∈ w.near.out, g.wire.ctrl ≠ uCtrl uSabm true
  | .call .t2Expired => w.near.ctx.currentState = .connected
  | .deliver _ => w.near.ctx.currentState = .connecting → ∀ flight ∈ w.far.out.head?,
      (flight.wire.ctrl = uCtrl uUa true → flight.number = w.near.issued) ∧
      (flight.wire.ctrl = uCtrl uDm true → ∀ g ∈ w.near.out, g.wire.ctrl ≠ uCtrl uSabm true)
  | _ => True

/-- Two stations with the same FCS, whose callbacks do not call back. -/
structure Wired (w : World) : Prop where
  crc : w.near.station.crc = w.far.station.crc
  nearPassive : w.near.station.platform.Passive
  farPassive : w.far.station.platform.Passive

theorem Wired.swap {w : World} (h : Wired w) : Wired w.swap := ⟨h.crc.symm, h.farPassive, h.nearPassive⟩

theorem Wired.step {w : World} (h : Wired w) (m : Move) : Wired (w.step m) := by
  obtain ⟨hnear, hfar⟩ := step_stations w m
  constructor
  · rw [hnear, hfar]
    exact h.crc
  · rw [hnear]
    exact h.nearPassive
  · rw [hfar]
    exact h.farPassive

/-- No payload that a station takes has more than `bound` octets. -/
structure Limited (bound : Nat) (w : World) : Prop where
  near : w.near.station.config.maxInfoSize ≤ bound
  far : w.far.station.config.maxInfoSize ≤ bound

theorem Limited.swap {bound : Nat} {w : World} (h : Limited bound w) : Limited bound w.swap := ⟨h.far, h.near⟩

theorem Limited.step {bound : Nat} {w : World} (h : Limited bound w) (m : Move) : Limited bound (w.step m) := by
  obtain ⟨hnear, hfar⟩ := step_stations w m
  constructor
  · rw [hnear]
    exact h.near
  · rw [hfar]
    exact h.far

/-- Two stations that stand for two peers. -/
structure Related (R : Rules) (bound : Nat) (w : World) (n : Net (List UInt8)) : Prop where
  near : Stands w.far.station.config.address bound w.near n.near
  far : Stands w.near.station.config.address bound w.far n.far
  inv : Inv R n

theorem Related.swap {R : Rules} {bound : Nat} {w : World} {n : Net (List UInt8)} (h : Related R bound w n) :
    Related R bound w.swap n.swap := ⟨h.far, h.near, h.inv.swap⟩

section Related

variable {R : Rules} {bound : Nat} {w : World} {n : Net (List UInt8)}

/-- The far station and its channel, with fewer frames on the way. -/
theorem Stands.drop {peer : UInt8} {e : Endpoint} {x : Peer (List UInt8)} (h : Stands peer bound e x) (k : Nat) :
    Stands peer bound { e with out := e.out.drop k } { x with out := x.out.drop k } :=
  ⟨{ h.reflects with }, h.index, h.pending, h.issued, h.heard, List.forall₂_drop k h.out⟩

theorem Related.call (h : Related R bound w n) {c : Call}
    (hacts : Acts w.far.station.config.address bound R n.near (w.near.call c)) :
    ∃ n', Relation.ReflTransGen (Step R) n n' ∧ Related R bound (w.step (.call c)) n' := by
  obtain ⟨x', hstands, hsteps⟩ := hacts
  have hfar := h.far
  rw [← (step_stations w (.call c)).1] at hfar
  exact ⟨⟨x', n.far⟩, hsteps n.far, hstands, hfar, h.inv.steps (hsteps n.far)⟩

theorem Related.lose (h : Related R bound w n) (hlossy : R.lossy) (i : Nat) :
    ∃ n', Relation.ReflTransGen (Step R) n n' ∧ Related R bound (w.step (.lose i)) n' := by
  have hout : List.Forall₂ (Carries w.near.station w.far.station.config.address) (w.near.out.eraseIdx i)
      (n.near.out.eraseIdx i) := by
    rw [List.eraseIdx_eq_take_drop_succ, List.eraseIdx_eq_take_drop_succ]
    exact List.rel_append (List.forall₂_take i h.near.out) (List.forall₂_drop (i + 1) h.near.out)
  have hsteps : Relation.ReflTransGen (Step R) n ⟨{ n.near with out := n.near.out.eraseIdx i }, n.far⟩ := by
    rcases Nat.lt_or_ge i n.near.out.length with hlt | hge
    · have hsplit : n.near.out = n.near.out.take i ++ n.near.out[i] :: n.near.out.drop (i + 1) := by
        rw [← List.drop_eq_getElem_cons hlt, List.take_append_drop]
      rw [List.eraseIdx_eq_take_drop_succ]
      exact .single (Or.inl (.talk (.lose _ _ _ hsplit (Or.inl hlossy))))
    · rw [List.eraseIdx_of_length_le hge]
  exact ⟨⟨{ n.near with out := n.near.out.eraseIdx i }, n.far⟩, hsteps,
    ⟨{ h.near.reflects with }, h.near.index, h.near.pending, h.near.issued, h.near.heard, hout⟩, h.far,
    h.inv.steps hsteps⟩

/-- No octets, and nothing armed. -/
theorem dataIn_nil {st : Station} {s : Ctx} (h : s.retransmitPending = false) : dataIn st s [] = s := by
  unfold dataIn retransmitIfPending
  rw [if_neg]
  · rfl
  · exact ne_true_of_eq_false h

/-- Nothing arrives. -/
theorem Stands.receive_nil {peer : UInt8} {e : Endpoint} {x : Peer (List UInt8)} (h : Stands peer bound e x) :
    Stands peer bound (e.receive []) x := by
  have hidle : dataIn e.station e.ctx [] = e.ctx := dataIn_nil h.pending
  have hreceive : e.receive [] = e.become (dataIn e.station e.ctx []) := rfl
  rw [hreceive, hidle]
  exact h.become h.reflects h.index h.pending (.silent rfl rfl rfl rfl)

/-- What a punctual answer is to the peer. -/
theorem Related.answer_last (h : Related R bound w n) (hpunctual : Punctual w (.deliver 1)) {flight : Flight}
    (hflight : w.far.out.head? = some flight) {m : Msg (List UInt8)}
    (hm : Carries w.far.station w.near.station.config.address flight m) (hopening : n.near.link = .opening) :
    (∀ k, m = .accept k → k = n.near.commands) ∧ ∀ k, m = .refuse k → ∀ k', .setup k' ∉ n.near.out := by
  have hstate := linkOf_opening.mp (h.near.reflects.link.symm.trans hopening)
  obtain ⟨haccept, hrefuse⟩ := hpunctual hstate flight hflight
  constructor
  · rintro k rfl
    obtain ⟨hctrl, hnumber⟩ := hm.accept
    rw [← hnumber, haccept hctrl]
    exact h.near.issued
  · rintro k rfl k' hk'
    obtain ⟨g, hg, hsetup⟩ := exists_flight h.near.out hk'
    exact hrefuse hm.refuse g hg hsetup.setup

theorem Related.deliver (h : Related R bound w n) (hR : R.modulus = mod8) (hwired : Wired w)
    (hkept : R.exact → Kept (windowOf w.near.station) w.near.ctx)
    (hreject : .reject ∈ n.far.out → R.lossy) (hpunctual : Punctual w (.deliver 1)) :
    ∃ n', Relation.ReflTransGen (Step R) n n' ∧ Related R bound (w.step (.deliver 1)) n' := by
  have hfar := h.far.drop 1
  rw [← (step_stations w (.deliver 1)).1] at hfar
  have hout := h.far.out
  cases hms : n.far.out with
  | nil =>
      rw [hms] at hout
      have hflights : w.far.out = [] := List.forall₂_nil_right_iff.mp hout
      have hnear : Stands w.far.station.config.address bound (w.near.receive (w.far.out.take 1)) n.near := by
        rw [hflights]
        exact h.near.receive_nil
      have hsame : { n.far with out := n.far.out.drop 1 } = n.far := by
        rw [hms, List.drop_nil, ← hms]
      rw [hsame] at hfar
      exact ⟨n, .refl, hnear, hfar, h.inv⟩
  | cons m rest =>
      rw [hms] at hout
      obtain ⟨flight, flights, hm, -, hflights⟩ := List.forall₂_cons_right_iff.mp hout
      have hhead : w.far.out.head? = some flight := by rw [hflights, List.head?_cons]
      obtain ⟨x', hstands, hchats⟩ := h.near.receive_one hwired.nearPassive hR hkept hwired.crc.symm rfl hm hms
        (fun hopening => (h.answer_last hpunctual hhead hm hopening).1)
        (fun hopening => (h.answer_last hpunctual hhead hm hopening).2)
        fun heq => hreject (by rw [hms, heq]; exact List.mem_cons_self)
      have htake : w.far.out.take 1 = [flight] := by rw [hflights, List.take_succ_cons, List.take_zero]
      have hnear : Stands w.far.station.config.address bound (w.near.receive (w.far.out.take 1)) x' := by
        rw [htake]
        exact hstands
      rw [hms, List.drop_succ_cons, List.drop_zero] at hfar
      have hsteps := chat_step hchats
      exact ⟨⟨x', { n.far with out := rest }⟩, hsteps, hnear, hfar, h.inv.steps hsteps⟩

/-- Every punctual move of the near station is what its peer may do. -/
theorem Related.step (h : Related R bound w n) (hR : R.modulus = mod8) (hwired : Wired w) {m : Move}
    (hm : Connects w m) (hpunctual : Punctual w m) (hkept : R.exact → Kept (windowOf w.near.station) w.near.ctx)
    (hreject : .reject ∈ n.far.out → R.lossy) (htimed : m = .call .t1Expired → R.timed)
    (hlossy : ∀ i, m = .lose i → R.lossy)
    (hbound : ∀ data, m = .call (.transmitI data) → data.len ≤ w.near.station.config.maxInfoSize →
      data.len ≤ bound) :
    ∃ n', Relation.ReflTransGen (Step R) n n' ∧ Related R bound (w.step m) n' := by
  cases m with
  | call c =>
      cases c with
      | linkSetup peerAddr =>
          have hpeer : peerAddr = w.far.station.config.address := hm
          rw [hpeer]
          exact h.call (h.near.acts_linkSetup hwired.nearPassive)
      | disconnect => exact h.call (h.near.acts_disconnect hwired.nearPassive)
      | transmitI data =>
          exact h.call (h.near.says_transmitI hwired.nearPassive hm (hbound data rfl)).acts
      | setLocalBusy busy => exact h.call (h.near.says_setLocalBusy busy).acts
      | t1Expired =>
          refine h.call (h.near.acts_t1Expired hwired.nearPassive (htimed rfl) fun hspent hopening k hk => ?_)
          have hstate := linkOf_opening.mp (h.near.reflects.link.symm.trans hopening)
          obtain ⟨g, hg, hsetup⟩ := exists_flight h.near.out hk
          exact hpunctual hspent hstate g hg hsetup.setup
      | t2Expired =>
          have hup : n.near.link = .up := h.near.reflects.link.trans (linkOf_up.mpr hpunctual)
          exact h.call (h.near.says_t2Expired hup).acts
      | _ => exact hm.elim
  | lose i => exact h.lose (hlossy i rfl) i
  | deliver k =>
      obtain rfl : k = 1 := hm
      exact h.deliver hR hwired hkept hreject hpunctual

end Related

/-- A station that `atc_hdlc_init` has just set up, with the address of its peer. -/
def Endpoint.initial (st : Station) (mem : Memory) (peer : UInt8) : Endpoint :=
  ⟨st, { initCtx st mem with peerAddress := peer }, 0, 0, []⟩

/-- Two stations just initialised, each with the address of the other one as its peer's. -/
structure Initial (w : World) : Prop where
  near : ∃ mem, w.near = .initial w.near.station mem w.far.station.config.address
  far : ∃ mem, w.far = .initial w.far.station mem w.near.station.config.address
  distinct : w.near.station.config.address ≠ w.far.station.config.address
  crc : w.near.station.crc = w.far.station.crc
  nearPassive : w.near.station.platform.Passive
  farPassive : w.far.station.platform.Passive

/-- The greater of the limits of two stations. -/
def World.maxInfo (w : World) : Nat := max w.near.station.config.maxInfoSize w.far.station.config.maxInfoSize

theorem Initial.wired {w : World} (h : Initial w) : Wired w := ⟨h.crc, h.nearPassive, h.farPassive⟩

theorem limited_maxInfo (w : World) : Limited w.maxInfo w := ⟨Nat.le_max_left _ _, Nat.le_max_right _ _⟩

/-- The peer of a station that has done nothing yet. -/
def idlePeer (st : Station) : Peer (List UInt8) := ⟨.down, (windowOf st).slotCount, [], 0, [], 0, 0, 0, []⟩

theorem initial_stands (st : Station) (mem : Memory) (peer : UInt8) (bound : Nat) :
    Stands peer bound (.initial st mem peer) (idlePeer st) := by
  have hquiet : Quiet (initCtx st mem) { initCtx st mem with peerAddress := peer } :=
    .of_trace rfl rfl rfl rfl rfl rfl rfl
  refine ⟨⟨rfl, rfl, rfl, fun _ => ⟨rfl, rfl⟩, (WindowInv.init st mem).quiet hquiet, rfl, rfl, rfl, rfl, rfl, ?_⟩,
    rfl, rfl, rfl, rfl, .nil⟩
  exact fun payload hmem => absurd hmem List.not_mem_nil

theorem Initial.related {R : Rules} (hR : R.modulus = mod8) {w : World} (h : Initial w) (bound : Nat) :
    Related R bound w ⟨idlePeer w.near.station, idlePeer w.far.station⟩ := by
  have hstart (st st' : Station) : Start R (idlePeer st) (idlePeer st') := by
    refine ⟨Or.inl ⟨rfl, rfl⟩, ?_, rfl, rfl, rfl, Nat.le_refl 0, rfl⟩
    rw [hR]
    exact Nat.lt_succ_of_le (windowOf st).slotCount_le
  obtain ⟨mem, hnear⟩ := h.near
  obtain ⟨mem', hfar⟩ := h.far
  refine ⟨?_, ?_, (hstart _ _).dir (hstart _ _), (hstart _ _).dir (hstart _ _)⟩
  · rw [hnear]
    exact initial_stands _ mem _ bound
  · rw [hfar]
    exact initial_stands _ mem' _ bound

/-- Two stations of the mock set-up, just initialised. -/
def blankWorld : World :=
  ⟨.initial (mockStation 0x01 3 threeSlots_pos threeSlots_le) zeroMemory 0x02,
    .initial (mockStation 0x02 3 threeSlots_pos threeSlots_le) zeroMemory 0x01⟩

theorem blankWorld_initial : Initial blankWorld :=
  ⟨⟨zeroMemory, rfl⟩, ⟨zeroMemory, rfl⟩, by decide, rfl, mockPlatform_passive, mockPlatform_passive⟩

end AtcHdlc
