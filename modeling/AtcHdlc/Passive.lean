import Mathlib.Data.List.Infix
import AtcHdlc.Replies
import AtcHdlc.Retries
import AtcHdlc.Streaming

/-! Passive open: one station sets the link up and the other one is initialised and waits. A SABM carries the
address of the station it goes to, so the waiting one never learns where it came from, and its peer address
stays 0x00. What it sends under its own address passes the filter of the other station, what it sends to its
peer does not; which call or frame makes it send to its peer is said exactly.

Nothing is lost here and nothing is cut to measure: what one station has given to `on_send` is what the other
one reads, in order, some octets with each `atc_hdlc_data_in`. -/

namespace AtcHdlc

/-- A station, and how many octets of the other one's line it has read. -/
structure Reader where
  station : Station
  ctx : Ctx
  read : Nat

/-- A call of the application, or the reading of some more octets. -/
inductive Turn where
  | call (c : Call)
  | read (n : Nat)

namespace Reader

/-- What the station has put on the line. -/
def line (e : Reader) : List UInt8 := sentOctets e.ctx.trace

/-- The octets that a turn reads from the line of the other station. -/
def taken (e : Reader) (line : List UInt8) : Turn → List UInt8
  | .call _ => []
  | .read n => (line.drop e.read).take n

def toCall (e : Reader) (line : List UInt8) : Turn → Call
  | .call c => c
  | .read n => .dataIn ((line.drop e.read).take n)

def turn (e : Reader) (line : List UInt8) (m : Turn) : Reader where
  station := e.station
  ctx := (e.toCall line m).run e.station e.ctx
  read := e.read + (e.taken line m).length

/-- After `atc_hdlc_init`. -/
def initial (st : Station) (mem : Memory) : Reader := ⟨st, initCtx st mem, 0⟩

end Reader

structure Duplex where
  active : Reader
  passive : Reader

namespace Duplex

def turnActive (d : Duplex) (m : Turn) : Duplex := { d with active := d.active.turn d.passive.line m }

def turnPassive (d : Duplex) (m : Turn) : Duplex := { d with passive := d.passive.turn d.active.line m }

end Duplex

/-- What the application of the active station may do: it sets up links with the other station only. -/
def Turn.Active (peer : UInt8) : Turn → Prop
  | .call (.linkSetup peerAddr) => peerAddr = peer
  | .call (.dataIn _) => False
  | .call c => c.Legal
  | .read _ => True

/-- What the application of the passive station may do: it sets up no link. -/
def Turn.Waiting : Turn → Prop
  | .call (.linkSetup _) | .call (.dataIn _) => False
  | .call c => c.Legal
  | .read _ => True

/-- The runs of two stations whose turns meet a condition each. -/
inductive Course (K L : Duplex → Turn → Prop) (d₀ : Duplex) : Duplex → Prop where
  | start : Course K L d₀ d₀
  | active {d : Duplex} (m : Turn) (h : Course K L d₀ d) (hK : K d m) : Course K L d₀ (d.turnActive m)
  | passive {d : Duplex} (m : Turn) (h : Course K L d₀ d) (hL : L d m) : Course K L d₀ (d.turnPassive m)

/-- What every turn keeps holds along a run. -/
theorem Course.invariant {K L : Duplex → Turn → Prop} {P : Duplex → Prop} {d₀ d : Duplex} (h : Course K L d₀ d)
    (hstart : P d₀) (hactive : ∀ d m, P d → K d m → P (d.turnActive m))
    (hpassive : ∀ d m, P d → L d m → P (d.turnPassive m)) : P d := by
  induction h with
  | start => exact hstart
  | active m _ hK ih => exact hactive _ m ih hK
  | passive m _ hL ih => exact hpassive _ m ih hL

/-- What the two applications may do. -/
def Calls (d : Duplex) (m : Turn) : Prop := m.Active d.passive.station.config.address

section Line

variable {st : Station}

theorem Deed.line (hp : st.platform.Passive) {call : Call} {s s' : Ctx} (h : Deed st call s s') :
    sentOctets s.trace <+: sentOctets s'.trace := by
  have hsame {t : Ctx} (hview : senderView t = senderView s) : sentOctets s.trace <+: sentOctets t.trace := by
    have hsent : sentOctets t.trace = sentOctets s.trace := congrArg Prod.fst hview
    rw [hsent]
  cases h with
  | put f => exact ⟨_, (sentOctets_append _ _).symm⟩
  | loose crc os hos h => exact ⟨_, (sentOctets_append _ _).symm⟩
  | t1Start => exact hsame (senderView_t1Start s)
  | t2Stop => exact hsame (senderView_t2Stop s)
  | event event => exact hsame (senderView_onEvent hp s event)
  | reset _ => exact hsame (senderView_resetState s)
  | accept w data _ _ => exact hsame (@senderView_logs (filled w s data) [.accept data.read] rfl)
  | _ => exact List.prefix_rfl

/-- What is on the line stays there. -/
theorem Call.line (hp : st.platform.Passive) (s : Ctx) {call : Call} (hlegal : call.Legal) :
    sentOctets s.trace <+: sentOctets (call.run st s).trace := by
  by_cases hin : ∃ bytes, call = .dataIn bytes
  · obtain ⟨bytes, rfl⟩ := hin
    obtain ⟨l, hl, -⟩ := dataIn_whole hp s bytes
    exact ⟨_, hl.symm⟩
  · exact (Call.deeds st s hlegal fun bytes h => hin ⟨bytes, h⟩).induct
      (P := fun t => sentOctets s.trace <+: sentOctets t.trace) (fun _ _ hd ht => ht.trans (hd.line hp))
      List.prefix_rfl

end Line

section Reading

variable {st : Station} {s t : Ctx} {seg : List UInt8}

theorem Reading.agree (h : Reading st s seg) (ha : Agree t s) : Reading st t seg := by
  have hmy : t.myAddress = s.myAddress := congrArg FilterView.myAddress ha.filter
  have hpeer : t.peerAddress = s.peerAddress := congrArg FilterView.peerAddress ha.filter
  cases h with
  | hunting hstate hdrop => exact .hunting (ha.rxState.trans hstate) ((Dropped.congr hmy hpeer).mpr hdrop)
  | storing hstate hesc hstored =>
      refine .storing (ha.rxState ▸ hstate) (ha.rxState ▸ hesc) ⟨?_, fun i hi => ?_, ?_, ?_⟩
      · exact ha.rxIndex.trans hstored.index
      · rw [ha.rxBuffer i (hstored.index ▸ hi)]
        exact hstored.buffer i hi
      · exact ha.rxCrc.trans hstored.crc
      · exact fun hdrop => hstored.kept ((Dropped.congr hmy hpeer).mp hdrop)

theorem dispatchOf_loose {o : Obs} (h : Loose o) : dispatchOf o = none := by
  cases o with
  | dispatch => exact h.elim
  | _ => rfl

/-- No deed but that of an abort concerns the parser, if the peer stays the same. -/
theorem Deed.agree (hp : st.platform.Passive) {call : Call} {s s' : Ctx} (h : Deed st call s s')
    (habort : call ≠ .abort) (hpeer : ∀ peerAddr, call = .linkSetup peerAddr → s.peerAddress = peerAddr) :
    Agree s' s := by
  cases h with
  | put f => exact ⟨rfl, rfl, rfl, fun _ _ => rfl, filterView_put s f⟩
  | loose crc os hos _ =>
      have hnone : dispatches os = [] := List.filterMap_eq_nil_iff.mpr fun o ho => dispatchOf_loose (hos o ho)
      refine ⟨rfl, rfl, rfl, fun _ _ => rfl, ?_⟩
      simp [filterView, Ctx.logs, hnone]
  | t1Start => exact ⟨rfl, rfl, rfl, fun _ _ => rfl, filterView_t1Start s⟩
  | t2Stop => exact ⟨rfl, rfl, rfl, fun _ _ => rfl, filterView_t2Stop s⟩
  | event event =>
      have hview := filterView_onEvent (hp.preserves filterView) s event
      rw [onEvent_passive hp] at hview ⊢
      exact ⟨rfl, rfl, rfl, fun _ _ => rfl, hview⟩
  | reset _ =>
      have hview := @filterView_resetState st s
      rw [resetState_eq] at hview ⊢
      exact ⟨rfl, rfl, rfl, fun _ _ => rfl, hview⟩
  | hunt h => exact absurd h habort
  | peer peerAddr h _ =>
      rw [← hpeer peerAddr h]
      exact .refl s
  | accept w data _ _ => exact ⟨rfl, rfl, rfl, fun _ _ => rfl, filterView_log (filled w s data) rfl⟩
  | _ => exact ⟨rfl, rfl, rfl, fun _ _ => rfl, rfl⟩

theorem Call.agree (hp : st.platform.Passive) (s : Ctx) {call : Call} (hlegal : call.Legal)
    (hin : ∀ bytes, call ≠ .dataIn bytes) (habort : call ≠ .abort)
    (hpeer : ∀ peerAddr, call = .linkSetup peerAddr → s.peerAddress = peerAddr) :
    Agree (call.run st s) s := by
  refine (Call.deeds st s hlegal hin).induct (P := fun t => Agree t s) (fun t _ hd ht => ?_) (.refl s)
  have hsame : t.peerAddress = s.peerAddress := congrArg FilterView.peerAddress ht.filter
  exact (hd.agree hp habort fun peerAddr h => hsame.trans (hpeer peerAddr h)).trans ht

/-- No call changes the own address, and that of the peer only a set-up. -/
theorem Deed.addresses (hp : st.platform.Passive) {call : Call} {s s' : Ctx} (h : Deed st call s s') :
    s'.myAddress = s.myAddress ∧ (s'.peerAddress = s.peerAddress ∨ call = .linkSetup s'.peerAddress) := by
  cases h with
  | event event =>
      rw [onEvent_passive hp]
      exact ⟨rfl, Or.inl rfl⟩
  | reset _ =>
      rw [resetState_eq]
      exact ⟨rfl, Or.inl rfl⟩
  | peer peerAddr h _ => exact ⟨rfl, Or.inr h⟩
  | _ => exact ⟨rfl, Or.inl rfl⟩

theorem Call.addresses (hp : st.platform.Passive) (s : Ctx) {call : Call} (hlegal : call.Legal) :
    (call.run st s).myAddress = s.myAddress ∧
      ((call.run st s).peerAddress = s.peerAddress ∨ call = .linkSetup (call.run st s).peerAddress) := by
  by_cases hin : ∃ bytes, call = .dataIn bytes
  · obtain ⟨bytes, rfl⟩ := hin
    obtain ⟨hmy, hpeer⟩ := rxBytes_addresses (hp.preserves filterView) s bytes
    have hfilter := (@retransmitIfPending_agree st (rxBytes st s bytes)).filter
    exact ⟨(congrArg FilterView.myAddress hfilter).trans hmy,
      Or.inl ((congrArg FilterView.peerAddress hfilter).trans hpeer)⟩
  · refine (Call.deeds st s hlegal fun bytes h => hin ⟨bytes, h⟩).induct
      (P := fun t => t.myAddress = s.myAddress ∧ (t.peerAddress = s.peerAddress ∨ call = .linkSetup t.peerAddress))
      (fun t t' hd ht => ?_) ⟨rfl, Or.inl rfl⟩
    obtain ⟨hmy, hpeer⟩ := hd.addresses hp
    refine ⟨hmy.trans ht.1, ?_⟩
    rcases hpeer with hpeer | hpeer
    · rw [hpeer]
      exact ht.2
    · exact Or.inr hpeer

end Reading

section Hearing

variable {st : Station} {crc : CrcOps} {line : List UInt8} {p r : Nat} {f : Frame} {s : Ctx}

/-- A frame as it stands between its two flags. -/
def Frame.stuffed (crc : CrcOps) (f : Frame) : List UInt8 := octetCode.stuff (f.content crc)

/-- A frame lies on the line from the octet `p` on. -/
def LiesAt (crc : CrcOps) (line : List UInt8) (p : Nat) (f : Frame) : Prop := f.octets crc <+: line.drop p

theorem LiesAt.octet (h : LiesAt crc line p f) {i : Nat} (hi : i < (f.octets crc).length) :
    (line)[p + i]? = (f.octets crc)[i]? := by
  obtain ⟨post, hpost⟩ := h
  rw [← List.getElem?_drop, ← hpost, List.getElem?_append_left hi]

/-- A station that has read `r` octets of the line is where the frame at `p` has brought its parser. -/
def Follows (st : Station) (crc : CrcOps) (s : Ctx) (r p : Nat) (f : Frame) : Prop :=
  ∀ i ≤ (f.stuffed crc).length, r = p + 1 + i → Reading st s ((f.stuffed crc).take i)

/-- One octet after the other. -/
theorem Follows.rxBytes (h : Follows st crc s r p f) (hlies : LiesAt crc line p f) (j : Nat) :
    Follows st crc (rxBytes st s ((line.drop r).take j)) (r + j) p f := by
  have hoctets : f.octets crc = flag :: (f.stuffed crc ++ [flag]) := rfl
  induction j with
  | zero => exact h
  | succ j ih =>
      intro i hi hreads
      have hnext : (line)[r + j]? = (f.octets crc)[i]? := by
        have hplace : r + j = p + i := by omega
        rw [hplace]
        refine hlies.octet ?_
        rw [hoctets, List.length_cons, List.length_append]
        omega
      rw [List.take_add_one, List.getElem?_drop, hnext, hoctets]
      cases i with
      | zero =>
          rw [List.getElem?_cons_zero, Option.toList_some, rxBytes_snoc]
          exact rxByte_flag_reading _
      | succ i =>
          have hbody : (f.stuffed crc ++ [flag])[i]? = some (f.stuffed crc)[i] := by
            rw [List.getElem?_append_left (by omega), List.getElem?_eq_getElem]
          have hread := ih i (by omega) (by omega)
          have hflag : (f.stuffed crc)[i] ≠ flag := by
            intro heq
            have hmem : (f.stuffed crc)[i] ∈ octetCode.stuff (f.content crc) := List.getElem_mem _
            rw [heq] at hmem
            exact octetCode.flag_not_mem_stuff _ hmem
          rw [List.getElem?_cons_succ, hbody, Option.toList_some, rxBytes_snoc, ← List.take_append_getElem (by omega)]
          exact rxByte_reading hread hflag

/-- The flag that closes a frame dispatches it, if the receiver lets its address pass and has room for it. -/
theorem Follows.heard (hp : st.platform.Passive) (h : Follows st st.crc s r p f) (hlies : LiesAt st.crc line p f)
    (haddr : Accepted s.myAddress s.peerAddress f.address) (hroom : f.info.length + 4 ≤ st.rxCapacity) {j : Nat}
    (hj : r + j = p + 1 + (f.stuffed st.crc).length) :
    dispatches (AtcHdlc.rxBytes st s ((line.drop r).take (j + 1))).trace =
      dispatches (AtcHdlc.rxBytes st s ((line.drop r).take j)).trace ++ [⟨f.address, f.ctrl, heardInfo f.info⟩] := by
  have hoctets : f.octets st.crc = flag :: (f.stuffed st.crc ++ [flag]) := rfl
  have hread := h.rxBytes hlies j _ le_rfl hj
  rw [List.take_length] at hread
  have hnext : (line)[r + j]? = some flag := by
    have hplace : r + j = p + ((f.stuffed st.crc).length + 1) := by omega
    rw [hplace, hlies.octet (by rw [hoctets, List.length_cons, List.length_append]; simp), hoctets,
      List.getElem?_cons_succ, List.getElem?_append_right le_rfl, Nat.sub_self]
    rfl
  rw [List.take_add_one, List.getElem?_drop, hnext, Option.toList_some, rxBytes_snoc, rxByte_flag_heard hread]
  obtain ⟨hmy, hpeer⟩ := rxBytes_addresses (hp.preserves filterView) s ((line.drop r).take j)
  have hkeeps : Keeps st s.myAddress s.peerAddress (f.content st.crc) := (keeps_content_iff f).mpr ⟨haddr, hroom⟩
  have hunstuff : octetCode.unstuff (f.stuffed st.crc) = f.content st.crc := octetCode.unstuff_stuff _
  rw [hmy, hpeer, hunstuff, if_pos hkeeps, segmentFrame_content]
  have hview := filterView_dispatchFrame (hp.preserves filterView) (AtcHdlc.rxBytes st s ((line.drop r).take j))
    f.address f.ctrl f.arriving.info
  rw [arriving_info] at hview
  exact congrArg FilterView.dispatched hview

end Hearing

/-- Two stations with the same checksum, whose callbacks do not call back. The passive one still has its address and
is where calls have brought it, and the active one has read no more than there is. -/
structure Tuned (d : Duplex) : Prop where
  active : d.active.station.platform.Passive
  passive : d.passive.station.platform.Passive
  crc : d.active.station.crc = d.passive.station.crc
  address : d.passive.ctx.myAddress = d.passive.station.config.address
  reachable : ∃ mem, Reachable d.passive.station mem d.passive.ctx
  read : d.active.read ≤ d.passive.line.length

/-- The active station has set up a link with the passive one. -/
def HasPeer (d : Duplex) : Prop := d.active.ctx.peerAddress = d.passive.station.config.address

section Runs

variable {d d' : Duplex} {m : Turn} {p : Nat} {f : Frame}

theorem Turn.Active.legal {peer : UInt8} (h : m.Active peer) (e : Reader) (line : List UInt8) :
    (e.toCall line m).Legal := by
  cases m with
  | read n => trivial
  | call c =>
      cases c with
      | dataIn => exact h.elim
      | linkSetup => trivial
      | _ => exact h

theorem Turn.Waiting.legal (h : m.Waiting) (e : Reader) (line : List UInt8) : (e.toCall line m).Legal := by
  cases m with
  | read n => trivial
  | call c =>
      cases c with
      | dataIn | linkSetup => exact h.elim
      | _ => exact h

theorem Tuned.turnActive (h : Tuned d) : Tuned (d.turnActive m) := by
  refine ⟨h.active, h.passive, h.crc, h.address, h.reachable, ?_⟩
  have hread : d.active.read ≤ d.passive.line.length := h.read
  have htaken : (d.active.taken d.passive.line m).length ≤ d.passive.line.length - d.active.read := by
    cases m with
    | call c => exact Nat.zero_le _
    | read n =>
        rw [Reader.taken, List.length_take, List.length_drop]
        exact Nat.min_le_right _ _
  have hsum : d.active.read + (d.active.taken d.passive.line m).length ≤ d.passive.line.length := by omega
  exact hsum

theorem Tuned.turnPassive (h : Tuned d) (hm : m.Waiting) : Tuned (d.turnPassive m) := by
  have hlegal := hm.legal d.passive d.active.line
  obtain ⟨mem, hreach⟩ := h.reachable
  exact ⟨h.active, h.passive, h.crc, (Call.addresses h.passive d.passive.ctx hlegal).1.trans h.address,
    ⟨mem, hreach.call _ hlegal⟩, h.read.trans (Call.line h.passive d.passive.ctx hlegal).length_le⟩

theorem HasPeer.turnActive (h : HasPeer d) (hd : Tuned d) (hm : Calls d m) : HasPeer (d.turnActive m) := by
  have hlegal := Turn.Active.legal hm d.active d.passive.line
  rcases (Call.addresses hd.active d.active.ctx hlegal).2 with hsame | hsetup
  · exact hsame.trans h
  · cases m with
    | read n => exact Call.noConfusion hsetup
    | call c =>
        have hc : c = _ := hsetup
        rw [hc] at hm
        exact hm

/-- The parser of the active station is where the frame at the octet `p` of the line has brought it. -/
def FollowsAt (d : Duplex) (p : Nat) (f : Frame) : Prop :=
  Follows d.active.station d.active.station.crc d.active.ctx d.active.read p f

/-- A frame of the passive station, from the octet `p` of its line on, and the parser of the active one. -/
structure Tracks (d : Duplex) (p : Nat) (f : Frame) : Prop where
  lies : LiesAt d.active.station.crc d.passive.line p f
  follows : FollowsAt d p f

/-- The active station does not abort while it is reading the `n` octets from the octet `p` of the line on. -/
def ReadsOn (p n : Nat) (d : Duplex) (m : Turn) : Prop :=
  m = .call .abort → d.active.read ≤ p ∨ p + n ≤ d.active.read

/-- What is read of the line so far is read of the line that it is going to be. -/
theorem FollowsAt.read (h : FollowsAt d p f) {line : List UInt8} (hlies : LiesAt d.active.station.crc line p f)
    (hwritten : d.passive.line <+: line) (n : Nat) : FollowsAt (d.turnActive (.read n)) p f := by
  intro i hi hplace
  set taken := (d.passive.line.drop d.active.read).take n with htaken
  have hahead : taken = (line.drop d.active.read).take taken.length := by
    apply List.prefix_iff_eq_take.mp
    exact (List.take_prefix n _).trans (hwritten.drop d.active.read)
  have hread := Follows.rxBytes h hlies taken.length i hi hplace
  rw [← hahead] at hread
  exact hread.agree (retransmitIfPending_agree _)

/-- Whatever the active station does, it follows a frame that is on the line or is going to be. -/
theorem FollowsAt.turnActive (h : FollowsAt d p f) {line : List UInt8} (hlies : LiesAt d.active.station.crc line p f)
    (hwritten : d.passive.line <+: line) (hd : Tuned d) (hpeer : HasPeer d) (hm : Calls d m)
    (hreads : ReadsOn p (f.octets d.active.station.crc).length d m) : FollowsAt (d.turnActive m) p f := by
  have hlegal := Turn.Active.legal hm d.active d.passive.line
  cases m with
  | read n => exact h.read hlies hwritten n
  | call c =>
      intro i hi hplace
      have hplace : d.active.read = p + 1 + i := hplace
      have hi : i ≤ (f.stuffed d.active.station.crc).length := hi
      have habort : c ≠ .abort := by
        rintro rfl
        have hlength : (f.octets d.active.station.crc).length = (f.stuffed d.active.station.crc).length + 2 := by
          simp [Frame.octets, Frame.stuffed]
        rcases hreads rfl with hbefore | hbehind
        · omega
        · omega
      have hagree : Agree (c.run d.active.station d.active.ctx) d.active.ctx := by
        apply Call.agree hd.active d.active.ctx hlegal ?_ habort
        · rintro peerAddr rfl
          exact hpeer.trans hm.symm
        · rintro bytes rfl
          exact hm
      exact (h i hi hplace).agree hagree

theorem Tracks.turnActive (h : Tracks d p f) (hd : Tuned d) (hpeer : HasPeer d) (hm : Calls d m)
    (hreads : ReadsOn p (f.octets d.active.station.crc).length d m) : Tracks (d.turnActive m) p f :=
  ⟨h.lies, h.follows.turnActive h.lies List.prefix_rfl hd hpeer hm hreads⟩

/-- What is on the line of the passive station stays there. -/
theorem Tuned.written (hd : Tuned d) (hm : m.Waiting) : d.passive.line <+: (d.turnPassive m).passive.line :=
  Call.line hd.passive d.passive.ctx (hm.legal d.passive d.active.line)

theorem Tracks.turnPassive (h : Tracks d p f) (hd : Tuned d) (hm : m.Waiting) : Tracks (d.turnPassive m) p f :=
  ⟨List.IsPrefix.trans h.lies ((hd.written hm).drop p), h.follows⟩

/-- The octet `q` of the passive station's line dispatches a frame when the active one reads it. -/
def HeardAt (d : Duplex) (q : Nat) (f : Frame) : Prop :=
  let rest := d.passive.line.drop d.active.read
  let heard (k : Nat) := dispatches (rxBytes d.active.station d.active.ctx (rest.take (k - d.active.read))).trace
  d.active.read ≤ q → heard (q + 1) = heard q ++ [⟨f.address, f.ctrl, heardInfo f.info⟩]

theorem Tracks.hears (h : Tracks d p f) (hd : Tuned d)
    (haddr : Accepted d.active.ctx.myAddress d.active.ctx.peerAddress f.address)
    (hroom : f.info.length + 4 ≤ d.active.station.rxCapacity) :
    HeardAt d (p + (f.octets d.active.station.crc).length - 1) f := by
  intro hread
  have hlength : (f.octets d.active.station.crc).length = (f.stuffed d.active.station.crc).length + 2 := by
    simp [Frame.octets, Frame.stuffed]
  have hclosing := h.follows.heard hd.active h.lies haddr hroom
    (j := p + (f.octets d.active.station.crc).length - 1 - d.active.read) (by omega)
  have hnext : p + (f.octets d.active.station.crc).length - 1 + 1 - d.active.read =
      p + (f.octets d.active.station.crc).length - 1 - d.active.read + 1 := by omega
  simp only [hnext]
  exact hclosing

end Runs

/-! ### What the passive station sends -/

/-- The active station lets the frame's address pass, if it has set up its link, and has room for the frame. -/
def Passes (d : Duplex) (f : Frame) : Prop :=
  Accepted d.active.ctx.myAddress d.passive.station.config.address f.address ∧
    f.info.length + 4 ≤ d.active.station.rxCapacity

/-- A received frame that draws no REJ, and no FRMR or TEST response that the other station has no room for. -/
def Answerable (room : Nat) (x : Ctx × Received) : Prop :=
  ¬DrawsRej x.1 x.2 ∧ (DrawsFrmr x.1 x.2 → 7 ≤ room) ∧
    (DrawsEcho x.1 x.2 → (x.2.info.getD []).length + 4 ≤ room)

instance (room : Nat) (x : Ctx × Received) : Decidable (Answerable room x) :=
  inferInstanceAs (Decidable (_ ∧ (_ → _) ∧ (_ → _)))

/-- A call that sends, but to no unset peer: the enquiry and the delayed acknowledgement of a busy station, a
repeated FRMR, the frames whose address the caller gives, and an abort, which is no frame. -/
def SendsOwn (d : Duplex) : Call → Prop
  | .t1Expired =>
      d.passive.ctx.currentState = .connected ∧ d.passive.ctx.localBusy = true ∨
        d.passive.ctx.currentState = .frmrError ∧ 7 ≤ d.active.station.rxCapacity
  | .t2Expired => d.passive.ctx.localBusy = true
  | .transmitUi address data | .transmitTest address data =>
      Accepted d.active.ctx.myAddress d.passive.station.config.address address ∧
        data.len + 4 ≤ d.active.station.rxCapacity
  | .abort => True
  | _ => False

/-- A turn of the passive station with which it sends nothing to its peer: a call that sends nothing or only
such frames, or the reading of octets that draw no REJ and no I-frame. A streamed frame takes several turns. -/
def Undirected (d : Duplex) : Turn → Prop
  | .call c => Silent d.passive.station d.passive.ctx c ∨ SendsOwn d c
  | .read n =>
      let frames := chunkFrames d.passive.station d.passive.ctx ((d.active.line.drop d.passive.read).take n)
      (∀ x ∈ frames, Answerable d.active.station.rxCapacity x) ∧ resends frames = false

section Sends

variable {d : Duplex} {m : Turn}

/-- What a turn puts out that belongs to no frame: the two flags of an abort. -/
def Turn.loose : Turn → List UInt8
  | .call .abort => [flag, flag]
  | _ => []

/-- The frames that a turn of the passive station puts on the line. -/
def Sends (d : Duplex) (m : Turn) (fs : List Frame) : Prop :=
  (d.turnPassive m).passive.line = d.passive.line ++ (fs.flatMap (Frame.octets d.passive.station.crc) ++ m.loose)

theorem Sends.of_line {fs : List Frame} (hm : m.loose = [])
    (h : (d.turnPassive m).passive.line = d.passive.line ++ fs.flatMap (Frame.octets d.passive.station.crc)) :
    Sends d m fs := by
  rw [Sends, hm, List.append_nil]
  exact h

theorem Sends.nothing (hm : m.loose = [])
    (h : sentOctets (d.turnPassive m).passive.ctx.trace = sentOctets d.passive.ctx.trace) : Sends d m [] := by
  apply Sends.of_line hm
  rw [List.flatMap_nil, List.append_nil]
  exact h

theorem Sends.one {f : Frame} {s : Ctx} (hm : m.loose = [])
    (hline : sentOctets s.trace = sentOctets d.passive.ctx.trace)
    (h : senderView (d.turnPassive m).passive.ctx = senderView (s.put d.passive.station f)) : Sends d m [f] := by
  apply Sends.of_line hm
  have hsent := congrArg Prod.fst h
  refine hsent.trans ?_
  rw [List.flatMap_singleton, senderView, Ctx.put, sentOctets_append, sentOctets_obs, hline]
  rfl

/-- A silent call puts out no flag either. -/
theorem loose_of_silent {st : Station} {s : Ctx} {c : Call} (h : Silent st s c) : (Turn.call c).loose = [] := by
  cases c with
  | abort => exact h.elim
  | _ => rfl

theorem sends_abort : Sends d (.call .abort) [] := by
  have hview : senderView (abort d.passive.station d.passive.ctx) =
      senderView ((d.passive.ctx.log (.send flag false)).log (.send flag true)) := senderView_resetState _
  refine (congrArg Prod.fst hview).trans ?_
  rw [senderView, Ctx.log, Ctx.log, List.append_assoc, sentOctets_append]
  rfl

theorem Tuned.passes_own (hd : Tuned d) {info : List UInt8} (ctrl : UInt8)
    (hroom : info.length + 4 ≤ d.active.station.rxCapacity) : Passes d ⟨d.passive.ctx.myAddress, ctrl, info⟩ :=
  ⟨Or.inr (Or.inl hd.address), hroom⟩

theorem Tuned.sends_read (hd : Tuned d) {n : Nat} (hm : Undirected d (.read n)) :
    ∃ fs, Sends d (.read n) fs ∧ ∀ f ∈ fs, Passes d f := by
  obtain ⟨mem, hreach⟩ := hd.reachable
  have hgrants : ∀ x ∈ chunkFrames d.passive.station d.passive.ctx ((d.active.line.drop d.passive.read).take n),
      x.1.myAddress = d.passive.ctx.myAddress → Grants (Passes d) x.1 x.2 := by
    intro x hx hmy
    obtain ⟨hrej, hfrmr, hecho⟩ := hm.1 x hx
    refine ⟨fun ctrl _ => ?_, fun h => absurd h hrej, fun h flags => ?_, fun h => ?_⟩
    · rw [hmy]
      exact hd.passes_own ctrl d.active.station.rxCapacity_frame
    · rw [frmrFrame, hmy]
      exact hd.passes_own _ (hfrmr h)
    · rw [hmy]
      exact hd.passes_own _ (hecho h)
  obtain ⟨fs, hfs, hall⟩ := (rxBytes_replies hd.passive d.passive.ctx hgrants).octets
  refine ⟨fs, .of_line rfl ?_, hall⟩
  rw [Reader.line, Reader.line, ← sentOctets_onLine d.passive.ctx.trace]
  have hread := (sentOctets_onLine _).symm.trans hfs
  exact (retransmitIfPending_silent hd.passive hreach hm.2).trans hread

theorem Tuned.sends_t1Expired (hd : Tuned d) (hm : SendsOwn d .t1Expired) :
    ∃ fs, Sends d (.call .t1Expired) fs ∧ ∀ f ∈ fs, Passes d f := by
  obtain ⟨mem, hreach⟩ := hd.reachable
  by_cases hsilent : Silent d.passive.station d.passive.ctx .t1Expired
  · exact ⟨[], .nothing rfl (Call.silent hd.passive hreach hsilent), by simp⟩
  · have hkept : ¬Exhausted d.passive.station (counted d.passive.ctx) := fun hspent => hsilent (Or.inl hspent)
    have hwait : Awaiting d.passive.ctx := by
      rcases hm with ⟨hstate, -⟩ | ⟨hstate, -⟩
      · exact Or.inr (Or.inr (Or.inr ⟨hstate, fun hidle => hsilent (Or.inr (Or.inr ⟨hstate, hidle⟩))⟩))
      · exact Or.inr (Or.inr (Or.inl hstate))
    have hrepeats : t1Expired d.passive.station d.passive.ctx = _ := t1Expired_repeats hwait hkept
    refine ⟨[enquiry d.passive.ctx], .one rfl rfl ((congrArg senderView hrepeats).trans (senderView_t1Start _)), ?_⟩
    rw [List.forall_mem_singleton, enquiry]
    rcases hm with ⟨hstate, hbusy⟩ | ⟨hstate, hroom⟩
    · simp only [hstate, hbusy, if_true]
      exact hd.passes_own _ d.active.station.rxCapacity_frame
    · simp only [hstate]
      exact hd.passes_own _ hroom

theorem sends_transmitU {c : Call} {ctrl address : UInt8} {data : Payload} (hloose : (Turn.call c).loose = [])
    (hc : c.run d.passive.station d.passive.ctx = (transmitU d.passive.station d.passive.ctx ctrl address data).2)
    (haddr : Accepted d.active.ctx.myAddress d.passive.station.config.address address)
    (hroom : data.len + 4 ≤ d.active.station.rxCapacity) :
    ∃ fs, Sends d (.call c) fs ∧ ∀ f ∈ fs, Passes d f := by
  have hlength : data.read.length = data.len := by cases data <;> simp [Payload.read, Payload.len]
  rcases transmitU_cases d.passive.station d.passive.ctx ctrl address data with hsame | hput
  · exact ⟨[], .nothing hloose (congrArg (sentOctets ·.trace) (hc.trans hsame)), by simp⟩
  · refine ⟨[⟨address, ctrl, data.read⟩], .one hloose rfl (congrArg senderView (hc.trans hput)), ?_⟩
    rw [List.forall_mem_singleton]
    exact ⟨haddr, by rw [hlength]; exact hroom⟩

/-- Sent to no peer, every frame of the passive station passes. -/
theorem Tuned.sends (hd : Tuned d) (hm : Undirected d m) : ∃ fs, Sends d m fs ∧ ∀ f ∈ fs, Passes d f := by
  cases m with
  | read n => exact hd.sends_read hm
  | call c =>
      obtain ⟨mem, hreach⟩ := hd.reachable
      rcases hm with hsilent | hown
      · exact ⟨[], .nothing (loose_of_silent hsilent) (Call.silent hd.passive hreach hsilent), by simp⟩
      · cases c with
        | t1Expired => exact hd.sends_t1Expired hown
        | t2Expired =>
            have hbusy : d.passive.ctx.localBusy = true := hown
            have hput : t2Expired d.passive.station d.passive.ctx =
                { d.passive.ctx with t2Active := false }.put d.passive.station
                  ⟨d.passive.ctx.myAddress, sCtrl sRnr d.passive.ctx.vr false, []⟩ := by
              simp only [AtcHdlc.t2Expired, hbusy, if_true, sendRnr, sendS_eq]
            refine ⟨_, .one (s := { d.passive.ctx with t2Active := false }) rfl rfl (congrArg senderView hput), ?_⟩
            rw [List.forall_mem_singleton]
            exact hd.passes_own _ d.active.station.rxCapacity_frame
        | transmitUi address data => exact sends_transmitU rfl rfl hown.1 hown.2
        | transmitTest address data => exact sends_transmitU rfl rfl hown.1 hown.2
        | abort => exact ⟨[], sends_abort, by simp⟩
        | _ => exact hown.elim

end Sends

/-- Two stations after `atc_hdlc_init`, with different addresses and the same checksum. -/
structure Initialised (d : Duplex) : Prop where
  active : ∃ mem, d.active = .initial d.active.station mem
  passive : ∃ mem, d.passive = .initial d.passive.station mem
  activePassive : d.active.station.platform.Passive
  passivePassive : d.passive.station.platform.Passive
  crc : d.active.station.crc = d.passive.station.crc
  distinct : d.active.station.config.address ≠ d.passive.station.config.address
  assigned : ∀ address ∈ [d.active.station.config.address, d.passive.station.config.address],
    address ≠ 0 ∧ address ≠ broadcastAddress

/-- The runs of the two applications. -/
abbrev Dialogue (d₀ d : Duplex) : Prop := Course Calls (fun _ => Turn.Waiting) d₀ d

/-- The frame at the octet `p` of the passive station's line: the filter of the active one lets its address pass,
and whatever both do from there on, the flag that closes the frame dispatches it, unless the active station aborts
in the middle of it. -/
def LandsAt (d : Duplex) (p : Nat) (f : Frame) : Prop :=
  let length := (f.octets d.passive.station.crc).length
  Accepted d.active.ctx.myAddress d.active.ctx.peerAddress f.address ∧
    ∀ d', Course (fun d m => Calls d m ∧ ReadsOn p length d m) (fun _ => Turn.Waiting) d d' →
      HeardAt d' (p + length - 1) f

/-- What the turn of the passive station has put on the line behind the frames `gs` lands. -/
def Lands (d : Duplex) (m : Turn) (gs : List Frame) (f : Frame) : Prop :=
  LandsAt (d.turnPassive m) (d.passive.line.length + (gs.flatMap (Frame.octets d.passive.station.crc)).length) f

/-- The passive station goes on with a frame that it streams, or puts nothing on the line. -/
def Streams (d : Duplex) (m : Turn) : Prop :=
  m.Waiting ∧ ((∃ data, d.passive.toCall d.active.line m = .transmitUiData data) ∨
    Silent d.passive.station d.passive.ctx (d.passive.toCall d.active.line m))

/-- From `d` on the passive station streams a UI frame, and the active one does not abort in the middle of it. -/
def Streaming (d : Duplex) (address : UInt8) : Duplex → Prop :=
  Course (fun e m => Calls e m ∧ (m = .call .abort → e.active.read ≤ d.passive.line.length)) Streams
    (d.turnPassive (.call (.transmitUiStart address)))

/-- With its end at `e`, the frame that has been streamed since `d` is whole, and it lands if it passes. -/
def StreamLands (d : Duplex) (address : UInt8) (e : Duplex) : Prop :=
  ∃ f : Frame, f.address = address ∧ f.ctrl = uCtrl uUi false ∧
    (e.turnPassive (.call .transmitUiEnd)).passive.line = d.passive.line ++ f.octets d.passive.station.crc ∧
    (Passes d f → LandsAt (e.turnPassive (.call .transmitUiEnd)) d.passive.line.length f)

section Open

variable {d₀ v d d' : Duplex} {m : Turn} {p : Nat} {f : Frame}

theorem Initialised.tuned (h : Initialised d₀) : Tuned d₀ := by
  obtain ⟨mem, hactive⟩ := h.active
  obtain ⟨mem', hpassive⟩ := h.passive
  refine ⟨h.activePassive, h.passivePassive, h.crc, ?_, ⟨mem', ?_⟩, ?_⟩
  · rw [hpassive]
    rfl
  · rw [hpassive]
    exact .init
  · rw [hactive]
    exact Nat.zero_le _

theorem Course.tuned (h : Dialogue d₀ d) (hd : Tuned d₀) : Tuned d :=
  h.invariant hd (fun _ _ hd _ => hd.turnActive) fun _ _ hd hm => hd.turnPassive hm

theorem setState_peerAddress {st : Station} (hp : st.platform.Passive) (s : Ctx) (newState : State) (event : Event) :
    (setState st s newState event).peerAddress = s.peerAddress := by
  simp only [setState]
  split_ifs
  · rw [onEvent_passive hp]
    rfl
  · rfl

theorem linkSetup_peerAddress {st : Station} (hp : st.platform.Passive) {s : Ctx}
    (hdown : s.currentState = .disconnected) (peerAddr : UInt8) :
    (linkSetup st s peerAddr).2.peerAddress = peerAddr := by
  rw [linkSetup, if_neg (not_not.mpr hdown)]
  refine (setState_peerAddress hp _ _ _).trans ?_
  rw [sendU_eq]
  rfl

/-- A link that was set up once keeps its peer. -/
theorem Course.hasPeer (h : Dialogue d₀ d) (hd : Tuned d₀) (hpeer : HasPeer d₀) : HasPeer d :=
  (h.invariant (P := fun d => Tuned d ∧ HasPeer d) ⟨hd, hpeer⟩
    (fun _ _ hd hm => ⟨hd.1.turnActive, hd.2.turnActive hd.1 hm⟩) fun _ _ hd hm => ⟨hd.1.turnPassive hm, hd.2⟩).2

/-- The same stations, and the same address of the active one. -/
def SameStations (d d' : Duplex) : Prop :=
  d'.active.station = d.active.station ∧ d'.passive.station = d.passive.station ∧
    d'.active.ctx.myAddress = d.active.ctx.myAddress

/-- A frame is open on the line behind that of `d`, and the active station follows whatever is going to be of it. -/
structure MidStream (d : Duplex) (address : UInt8) (e : Duplex) : Prop where
  tuned : Tuned e
  peer : HasPeer e
  same : SameStations d e
  opened : ∃ info, OnAir e.passive.station d.passive.line (some ⟨address, uCtrl uUi false, info⟩) e.passive.ctx []
  follows : ∀ f line, e.passive.line <+: line → LiesAt e.active.station.crc line d.passive.line.length f →
    FollowsAt e d.passive.line.length f

theorem SameStations.turnActive (h : SameStations d d') (hd : Tuned d') (hm : Calls d' m) :
    SameStations d (d'.turnActive m) := by
  obtain ⟨hactive, hpassive, hmy⟩ := h
  refine ⟨hactive, hpassive, Eq.trans ?_ hmy⟩
  exact (Call.addresses hd.active d'.active.ctx (Turn.Active.legal hm d'.active d'.passive.line)).1

theorem SameStations.passes (h : SameStations d d') (hpasses : Passes d f) : Passes d' f := by
  rw [Passes, h.1, h.2.1, h.2.2]
  exact hpasses

/-- Along a run a frame on the line is followed by the active station. -/
theorem Course.tracks
    (h : Course (fun e m => Calls e m ∧ ReadsOn p (f.octets d.active.station.crc).length e m)
      (fun _ => Turn.Waiting) d d')
    (hd : Tuned d) (hpeer : HasPeer d) (htracks : Tracks d p f) :
    Tuned d' ∧ HasPeer d' ∧ Tracks d' p f ∧ SameStations d d' := by
  refine h.invariant (P := fun e => Tuned e ∧ HasPeer e ∧ Tracks e p f ∧ SameStations d e)
    ⟨hd, hpeer, htracks, rfl, rfl, rfl⟩ (fun e m he hm => ?_)
    fun e m he hm => ⟨he.1.turnPassive hm, he.2.1, he.2.2.1.turnPassive he.1 hm, he.2.2.2⟩
  obtain ⟨htuned, hpeer, htracks, hsame⟩ := he
  have hreads : ReadsOn p (f.octets e.active.station.crc).length e m := by
    rw [hsame.1]
    exact hm.2
  exact ⟨htuned.turnActive, hpeer.turnActive htuned hm.1, htracks.turnActive htuned hpeer hm.1 hreads,
    hsame.turnActive htuned hm.1⟩

/-- A frame that is followed and passes lands. -/
theorem Tracks.lands (h : Tracks d p f) (hd : Tuned d) (hpeer : HasPeer d) (hpasses : Passes d f) : LandsAt d p f := by
  have haddr {e : Duplex} (he : HasPeer e) (hpasses : Passes e f) :
      Accepted e.active.ctx.myAddress e.active.ctx.peerAddress f.address := by
    have hpeer : e.active.ctx.peerAddress = e.passive.station.config.address := he
    rw [hpeer]
    exact hpasses.1
  refine ⟨haddr hpeer hpasses, fun d' hrun => ?_⟩
  rw [← hd.crc] at hrun ⊢
  obtain ⟨htuned, hpeer', htracks, hsame⟩ := hrun.tracks hd hpeer h
  have hpasses' := hsame.passes hpasses
  have hheard := htracks.hears htuned (haddr hpeer' hpasses') hpasses'.2
  rw [hsame.1] at hheard
  exact hheard

/-- A frame that is sent and passes lands, whatever is sent before it and behind it. -/
theorem Tuned.lands (hd : Tuned d) (hpeer : HasPeer d) (hwaits : m.Waiting) {gs hs : List Frame}
    (hsends : Sends d m (gs ++ f :: hs)) (hpasses : Passes d f) : Lands d m gs f := by
  refine Tracks.lands ⟨?_, fun i _ hplace => ?_⟩ (hd.turnPassive hwaits) hpeer hpasses
  · have hline : (d.turnPassive m).passive.line = _ := hsends
    have hcrc : (d.turnPassive m).active.station.crc = d.passive.station.crc := hd.crc
    rw [LiesAt, hcrc, hline, List.flatMap_append, List.flatMap_cons, List.append_assoc, List.append_assoc,
      ← List.append_assoc, ← List.length_append, List.drop_left]
    exact List.prefix_append _ _
  · have hread : d.active.read ≤ d.passive.line.length := hd.read
    have hplace : d.active.read = _ := hplace
    omega

theorem MidStream.begin {address : UInt8} (hd : Tuned d) (hpeer : HasPeer d) :
    MidStream d address (d.turnPassive (.call (.transmitUiStart address))) := by
  have hidle : OnAir d.passive.station d.passive.line none d.passive.ctx [] :=
    ⟨(List.append_nil _).symm, fun f hf => absurd hf (by simp)⟩
  refine ⟨hd.turnPassive trivial, hpeer, ⟨rfl, rfl, rfl⟩, ⟨[], hidle.start address⟩, ?_⟩
  -- the active station has read nothing of the frame yet
  intro f line _ _ i _ hplace
  have hread : d.active.read ≤ d.passive.line.length := hd.read
  have hplace : d.active.read = _ := hplace
  omega

theorem MidStream.turnActive {address : UInt8} (h : MidStream d address d') (hm : Calls d' m)
    (hreads : m = .call .abort → d'.active.read ≤ d.passive.line.length) : MidStream d address (d'.turnActive m) := by
  refine ⟨h.tuned.turnActive, h.peer.turnActive h.tuned hm, h.same.turnActive h.tuned hm, h.opened, ?_⟩
  intro f line hwritten hlies
  apply (h.follows f line hwritten hlies).turnActive hlies hwritten h.tuned h.peer hm
  intro habort
  exact Or.inl (hreads habort)

theorem MidStream.turnPassive {address : UInt8} (h : MidStream d address d') (hm : Streams d' m) :
    MidStream d address (d'.turnPassive m) := by
  obtain ⟨info, hopened⟩ := h.opened
  obtain ⟨mem, hreach⟩ := h.tuned.reachable
  obtain ⟨octets, hopened⟩ := hopened.goesOn h.tuned.passive hreach (hm.1.legal d'.passive d'.active.line) hm.2
  refine ⟨h.tuned.turnPassive hm.1, h.peer, h.same, ⟨info ++ octets, hopened⟩, ?_⟩
  intro f line hwritten hlies
  apply h.follows f line ?_ hlies
  exact (h.tuned.written hm.1).trans hwritten

/-- The end of the frame makes it whole. -/
theorem MidStream.lands {address : UInt8} (h : MidStream d address d') : StreamLands d address d' := by
  obtain ⟨info, hopened⟩ := h.opened
  have hline : (d'.turnPassive (.call .transmitUiEnd)).passive.line =
      d.passive.line ++ Frame.octets d'.passive.station.crc ⟨address, uCtrl uUi false, info⟩ := by
    refine hopened.finish.line.trans ?_
    simp [lineOf, openOctets]
  refine ⟨⟨address, uCtrl uUi false, info⟩, rfl, rfl, h.same.2.1 ▸ hline, fun hpasses => ?_⟩
  have hlies : LiesAt d'.active.station.crc (d'.turnPassive (.call .transmitUiEnd)).passive.line d.passive.line.length
      ⟨address, uCtrl uUi false, info⟩ := by
    rw [LiesAt, hline, List.drop_left, h.tuned.crc]
  have hends : Turn.Waiting (.call .transmitUiEnd) := trivial
  exact Tracks.lands ⟨hlies, h.follows _ _ (h.tuned.written hends) hlies⟩ (h.tuned.turnPassive hends) h.peer
    (h.same.passes hpasses)

/-- Once the active station has set up a link with it, the passive one is heard with all that it sends to no
peer: each such frame of each turn of a run, and each frame that it streams, passes the filter and is dispatched. -/
theorem passive_open_usable (hstart : Initialised d₀) (hv : Dialogue d₀ v)
    (hdown : v.active.ctx.currentState = .disconnected)
    (hrun : Dialogue (v.turnActive (.call (.linkSetup v.passive.station.config.address))) d) :
    (∀ m, m.Waiting → Undirected d m → ∃ fs, Sends d m fs ∧ ∀ gs f hs, fs = gs ++ f :: hs → Lands d m gs f) ∧
      ∀ address e, Streaming d address e → StreamLands d address e := by
  have htuned := hv.tuned hstart.tuned
  have hpeer := hrun.hasPeer htuned.turnActive (linkSetup_peerAddress htuned.active hdown _)
  have hd := hrun.tuned htuned.turnActive
  refine ⟨fun m hwaits hm => ?_, fun address e hstreaming => ?_⟩
  · obtain ⟨fs, hfs, hall⟩ := hd.sends hm
    refine ⟨fs, hfs, fun gs f hs hsplit => ?_⟩
    exact hd.lands hpeer hwaits (hsplit ▸ hfs) (hall f (hsplit ▸ List.mem_append_right gs List.mem_cons_self))
  · apply MidStream.lands
    exact Course.invariant (P := MidStream d address) hstreaming (.begin hd hpeer)
      (fun _ _ h hm => h.turnActive hm.1 hm.2) fun _ _ h hm => h.turnPassive hm

/-- Two stations of the mock set-up. -/
def waitingPair : Duplex where
  active := .initial (mockStation 0x01 3 threeSlots_pos threeSlots_le) zeroMemory
  passive := .initial (mockStation 0x02 3 threeSlots_pos threeSlots_le) zeroMemory

/-- The first one has called the second one. -/
def callingPair : Duplex := waitingPair.turnActive (.call (.linkSetup 0x02))

/-- SABM and UA have come through. -/
def connectedPair : Duplex := (callingPair.turnPassive (.read 20)).turnActive (.read 20)

theorem waitingPair_initialised : Initialised waitingPair where
  active := ⟨zeroMemory, rfl⟩
  passive := ⟨zeroMemory, rfl⟩
  activePassive := mockPlatform_passive
  passivePassive := mockPlatform_passive
  crc := rfl
  distinct := show (0x01 : UInt8) ≠ 0x02 by decide
  assigned := List.forall_mem_cons.mpr
    ⟨show (0x01 : UInt8) ≠ 0 ∧ (0x01 : UInt8) ≠ broadcastAddress by decide,
      List.forall_mem_singleton.mpr (show (0x02 : UInt8) ≠ 0 ∧ (0x02 : UInt8) ≠ broadcastAddress by decide)⟩

theorem connectedPair_dialogue : Dialogue callingPair connectedPair :=
  (Course.start.passive (.read 20) trivial).active (.read 20) trivial

/-- The passive station is busy when an I-frame is on its way to it. -/
def busyPair : Duplex :=
  (connectedPair.turnPassive (.call (.setLocalBusy true))).turnActive (.call (.transmitI (.octets [0x11])))

theorem busyPair_dialogue : Dialogue callingPair busyPair :=
  (connectedPair_dialogue.passive (.call (.setLocalBusy true)) trivial).active (.call (.transmitI (.octets [0x11])))
    (Or.inl rfl)

/-- The passive station has streamed the first octets of a frame, and the active one has read some of them. -/
def streamingPair : Duplex :=
  ((connectedPair.turnPassive (.call (.transmitUiStart 0x01))).turnPassive
    (.call (.transmitUiData (.octets [0x41])))).turnActive (.read 3)

theorem streamingPair_streaming : Streaming connectedPair 0x01 streamingPair :=
  (Course.start.passive (.call (.transmitUiData (.octets [0x41]))) ⟨trivial, Or.inl ⟨_, rfl⟩⟩).active (.read 3)
    ⟨trivial, nofun⟩

/-- The RNR of a busy station carries its own address, and a streamed frame that of the other one. -/
theorem passive_open_usable_mock :
    Sends busyPair (.read 20) [⟨0x02, sCtrl sRnr 1 false, []⟩] ∧
      (∃ fs, Sends busyPair (.read 20) fs ∧ ∀ gs f hs, fs = gs ++ f :: hs → Lands busyPair (.read 20) gs f) ∧
      StreamLands connectedPair 0x01 streamingPair := by
  refine ⟨?_, ?_, ?_⟩
  · show (_ : List UInt8) = _
    decide +kernel
  · refine (@passive_open_usable waitingPair waitingPair busyPair waitingPair_initialised .start rfl
      busyPair_dialogue).1 (.read 20) trivial ⟨?_, ?_⟩
    · decide +kernel
    · decide +kernel
  · exact (@passive_open_usable waitingPair waitingPair connectedPair waitingPair_initialised .start rfl
      connectedPair_dialogue).2 0x01 streamingPair streamingPair_streaming

/-- Both stations are CONNECTED; the I-frame of the passive one goes to the address 0x00, and the active one
has read all of it and dispatched nothing. -/
theorem passive_frame_dropped :
    Initialised waitingPair ∧ Dialogue callingPair connectedPair ∧
      connectedPair.active.ctx.currentState = .connected ∧ connectedPair.passive.ctx.currentState = .connected ∧
      Sends connectedPair (.call (.transmitI (.octets [0x11]))) [⟨0x00, iCtrl 0 0 false, [0x11]⟩] ∧
      ¬Accepted connectedPair.active.ctx.myAddress connectedPair.active.ctx.peerAddress 0x00 ∧
      let d := (connectedPair.turnPassive (.call (.transmitI (.octets [0x11])))).turnActive (.read 20)
      d.active.read = d.passive.line.length ∧
        dispatches d.active.ctx.trace = dispatches connectedPair.active.ctx.trace := by
  refine ⟨waitingPair_initialised, connectedPair_dialogue, ?_, ?_, ?_, ?_, ?_, ?_⟩
  · decide +kernel
  · decide +kernel
  · show (_ : List UInt8) = _
    decide +kernel
  · decide +kernel
  · decide +kernel
  · decide +kernel

end Open

end AtcHdlc
