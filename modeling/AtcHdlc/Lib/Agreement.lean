import AtcHdlc.Lib.DataLink

/-! What two peers agree on. `Dir R x y` is what holds of the peer `x`, its channel and its partner `y`;
a step of either peer keeps it, so that it holds along every run. Where both sessions are open it is the
go-back-N invariant `Flow`. -/

namespace DataLink

section Agreement

variable {α : Type}

/-- A payload message behind another is not older than a window. -/
def Ordered (m : Nat) (a b : Msg α) : Prop :=
  ∀ k p k' p', a.data? = some (k, p) → b.data? = some (k', p') → k + 1 < k' + m

/-- Two open sessions, in the direction from `x` to `y`. -/
structure Flow (R : Rules) (x y : Peer α) : Prop where
  acked_le : x.acked ≤ y.got.length
  got_le : y.got.length ≤ x.sent.length
  data : ∀ m ∈ x.out, ∀ k p, m.data? = some (k, p) →
    k < x.sent.length ∧ y.got.length < k + R.modulus ∧ (R.exact → x.acked ≤ k → x.sent[k]? = some p)
  ordered : x.out.Pairwise (Ordered R.modulus)
  acks : ∀ m ∈ y.out, ∀ r, m.nr? = some r → r ≤ y.got.length
  got : R.exact → y.got = x.sent.take y.got.length

/-- The peer `x`, its channel, and its partner `y`. -/
structure Dir (R : Rules) (x y : Peer α) : Prop where
  window_lt : x.window < R.modulus
  acked_le : x.acked ≤ x.sent.length
  sent_le : x.sent.length ≤ x.acked + x.window
  heard_le : y.heard ≤ x.commands
  command_new : ∀ m ∈ x.out, ∀ n, m.command? = some n → y.heard < n ∧ n ≤ x.commands
  command_sorted : x.out.Pairwise fun a b =>
    ∀ n n', a.command? = some n → b.command? = some n' → n < n'
  answer_le : ∀ m ∈ y.out, ∀ n, m.answer? = some n → n ≤ y.heard
  release_lt : x.link = .opening → ∀ n, .release n ∈ x.out → n < x.commands
  setup_opening : ∀ n, .setup n ∈ x.out → x.link = .opening
  setup_last : x.out.Pairwise fun a b => ∀ n, a = .setup n → b.nr? = none
  quiet : x.link = .opening → y.heard = x.commands → ∀ m ∈ x.out, m.nr? = none
  accept_zero : x.link = .opening →
    y.out.Pairwise fun a b => a = .accept x.commands → ∀ r, b.nr? = some r → r = 0
  accept_fresh : x.link = .opening → y.link = .up → .accept x.commands ∈ y.out →
    y.acked = 0 ∧ y.got = []
  accept_data : x.link = .opening → y.link = .up → y.out.Pairwise fun a b =>
    a = .accept x.commands → ∀ k p, b.data? = some (k, p) →
      k < y.sent.length ∧ (R.exact → y.acked ≤ k → y.sent[k]? = some p)
  flow : x.link = .up → y.link = .up → Flow R x y
  ack_window : y.link = .up → ∀ m ∈ x.out, ∀ r, m.nr? = some r → y.acked ≤ r ∧ r ≤ y.sent.length
  ack_sorted : y.link = .up →
    x.out.Pairwise fun a b => ∀ r r', a.nr? = some r → b.nr? = some r' → r ≤ r'

variable {R : Rules} {x y : Peer α}

namespace Dir

/-- Losing messages keeps everything. -/
theorem sublist (h : Dir R x y) {o o' : List (Msg α)} (hx : o.Sublist x.out) (hy : o'.Sublist y.out) :
    Dir R { x with out := o } { y with out := o' } where
  window_lt := h.window_lt
  acked_le := h.acked_le
  sent_le := h.sent_le
  heard_le := h.heard_le
  command_new m hm := h.command_new m (hx.subset hm)
  command_sorted := h.command_sorted.sublist hx
  answer_le m hm := h.answer_le m (hy.subset hm)
  release_lt hlink n hn := h.release_lt hlink n (hx.subset hn)
  setup_opening n hn := h.setup_opening n (hx.subset hn)
  setup_last := h.setup_last.sublist hx
  quiet hlink hheard m hm := h.quiet hlink hheard m (hx.subset hm)
  accept_zero hlink := (h.accept_zero hlink).sublist hy
  accept_fresh hlink hup hmem := h.accept_fresh hlink hup (hy.subset hmem)
  accept_data hlink hup := (h.accept_data hlink hup).sublist hy
  flow hlink hup := by
    have hflow := h.flow hlink hup
    exact ⟨hflow.acked_le, hflow.got_le, fun m hm => hflow.data m (hx.subset hm),
      hflow.ordered.sublist hx, fun m hm => hflow.acks m (hy.subset hm), hflow.got⟩
  ack_window hup m hm := h.ack_window hup m (hx.subset hm)
  ack_sorted hup := (h.ack_sorted hup).sublist hx

theorem forall_say {m : Msg α} {P : Msg α → Prop} (hold : ∀ a ∈ x.out, P a) (hnew : P m) :
    ∀ a ∈ (x.say m).out, P a := by
  intro a ha
  rcases List.mem_append.mp ha with ha | ha
  · exact hold a ha
  · rw [List.mem_singleton.mp ha]
    exact hnew

theorem pairwise_say {m : Msg α} {P : Msg α → Msg α → Prop} (hold : x.out.Pairwise P)
    (hnew : ∀ a ∈ x.out, P a m) : (x.say m).out.Pairwise P := by
  refine List.pairwise_append.mpr ⟨hold, List.pairwise_singleton P m, fun a ha b hb => ?_⟩
  rw [List.mem_singleton.mp hb]
  exact hnew a ha

/-- The peer says something that is no command and carries no number. -/
theorem say_plain (h : Dir R x y) {m : Msg α} (hnr : m.nr? = none) (hdata : m.data? = none)
    (hcommand : m.command? = none) : Dir R (x.say m) y := by
  have hnot (n : Nat) : m ≠ .release n ∧ m ≠ .setup n := by
    constructor
    all_goals
      rintro rfl
      exact absurd hcommand (by simp [Msg.command?])
  exact
    { h with
      command_new := forall_say h.command_new (by simp [hcommand])
      command_sorted := pairwise_say h.command_sorted (by simp [hcommand])
      release_lt := fun hlink n hn => by
        rcases List.mem_append.mp hn with hn | hn
        · exact h.release_lt hlink n hn
        · exact absurd (List.mem_singleton.mp hn).symm (hnot n).1
      setup_opening := fun n hn => by
        rcases List.mem_append.mp hn with hn | hn
        · exact h.setup_opening n hn
        · exact absurd (List.mem_singleton.mp hn).symm (hnot n).2
      setup_last := pairwise_say h.setup_last fun a _ n _ => hnr
      quiet := fun hlink hheard => forall_say (h.quiet hlink hheard) hnr
      flow := fun hlink hup => by
        have hflow := h.flow hlink hup
        exact
          { hflow with
            data := forall_say hflow.data (by simp [hdata])
            ordered := pairwise_say hflow.ordered fun a _ k p k' p' _ hb => by simp [hdata] at hb }
      ack_window := fun hup => forall_say (h.ack_window hup) (by simp [hnr])
      ack_sorted := fun hup => pairwise_say (h.ack_sorted hup) (by simp [hnr]) }

/-- The partner says something that carries no number. -/
theorem say_plain_far (h : Dir R x y) {m : Msg α} (hnr : m.nr? = none) (hdata : m.data? = none)
    (hanswer : ∀ n, m.answer? = some n → n ≤ y.heard)
    (haccept : x.link = .opening → y.link = .up → m = .accept x.commands → y.acked = 0 ∧ y.got = []) :
    Dir R x (y.say m) :=
  { h with
    answer_le := forall_say h.answer_le hanswer
    accept_zero := fun hlink => pairwise_say (h.accept_zero hlink) (by simp [hnr])
    accept_fresh := fun hlink hup hmem => by
      rcases List.mem_append.mp hmem with hmem | hmem
      · exact h.accept_fresh hlink hup hmem
      · exact haccept hlink hup (List.mem_singleton.mp hmem).symm
    accept_data := fun hlink hup => pairwise_say (h.accept_data hlink hup) (by simp [hdata])
    flow := fun hlink hup => by
      have hflow := h.flow hlink hup
      exact { hflow with acks := forall_say hflow.acks (by simp [hnr]) } }

theorem not_setup_of_up (h : Dir R x y) (hup : x.link = .up) (n : Nat) : .setup n ∉ x.out := by
  intro hn
  have hopening := h.setup_opening n hn
  rw [hup] at hopening
  exact absurd hopening (by decide)

/-- A peer with an open session says something with its number, and perhaps a payload of its window. -/
theorem say_numbered (h : Dir R x y) (h' : Dir R y x) (hup : x.link = .up) {m : Msg α}
    (hnr : m.nr? = some x.got.length)
    (hdata : ∀ k p, m.data? = some (k, p) → k < x.sent.length ∧ x.sent.length ≤ k + x.window ∧
      (R.exact → x.acked ≤ k → x.sent[k]? = some p)) : Dir R (x.say m) y := by
  have hcommand : m.command? = none := by cases m <;> simp_all [Msg.nr?, Msg.command?]
  have hnot (n : Nat) : m ≠ .release n ∧ m ≠ .setup n := by
    constructor
    all_goals
      rintro rfl
      exact absurd hcommand (by simp [Msg.command?])
  have hopening : x.link ≠ .opening := by
    rw [hup]
    decide
  have hwindow := h.window_lt
  exact
    { h with
      command_new := forall_say h.command_new (by simp [hcommand])
      command_sorted := pairwise_say h.command_sorted (by simp [hcommand])
      release_lt := fun hlink => absurd hlink hopening
      setup_opening := fun n hn => by
        rcases List.mem_append.mp hn with hn | hn
        · exact h.setup_opening n hn
        · exact absurd (List.mem_singleton.mp hn).symm (hnot n).2
      setup_last := pairwise_say h.setup_last fun a ha n hn =>
        absurd (hn ▸ ha) (h.not_setup_of_up hup n)
      quiet := fun hlink => absurd hlink hopening
      flow := fun hlink hup' => by
        have hflow := h.flow hlink hup'
        have hgot := hflow.got_le
        exact
          { hflow with
            data := forall_say hflow.data fun k p hkp => by
              obtain ⟨hk, hle, hexact⟩ := hdata k p hkp
              exact ⟨hk, by omega, hexact⟩
            ordered := pairwise_say hflow.ordered fun a ha k p k' p' hkp hkp' => by
              have hk := (hflow.data a ha k p hkp).1
              have hk' := (hdata k' p' hkp').2.1
              omega }
      ack_window := fun hup' => forall_say (h.ack_window hup') fun r hr => by
        have hflow := h'.flow hup' hup
        obtain rfl : x.got.length = r := Option.some_inj.mp (hnr.symm.trans hr)
        exact ⟨hflow.acked_le, hflow.got_le⟩
      ack_sorted := fun hup' => pairwise_say (h.ack_sorted hup') fun a ha r r' hr hr' => by
        obtain rfl : x.got.length = r' := Option.some_inj.mp (hnr.symm.trans hr')
        exact (h'.flow hup' hup).acks a ha r hr }

/-- The partner, with an open session, does. -/
theorem say_numbered_far (h : Dir R x y) (hup : y.link = .up) {m : Msg α}
    (hnr : m.nr? = some y.got.length)
    (hdata : ∀ k p, m.data? = some (k, p) →
      k < y.sent.length ∧ (R.exact → y.acked ≤ k → y.sent[k]? = some p)) :
    Dir R x (y.say m) := by
  have hanswer : m.answer? = none := by cases m <;> simp_all [Msg.nr?, Msg.answer?]
  have hnot (n : Nat) : m ≠ .accept n := by
    rintro rfl
    exact absurd hanswer (by simp [Msg.answer?])
  exact
    { h with
      answer_le := forall_say h.answer_le (by simp [hanswer])
      accept_zero := fun hlink => pairwise_say (h.accept_zero hlink) fun a ha heq r hr => by
        obtain rfl : y.got.length = r := Option.some_inj.mp (hnr.symm.trans hr)
        rw [(h.accept_fresh hlink hup (heq ▸ ha)).2, List.length_nil]
      accept_fresh := fun hlink hup' hmem => by
        rcases List.mem_append.mp hmem with hmem | hmem
        · exact h.accept_fresh hlink hup' hmem
        · exact absurd (List.mem_singleton.mp hmem).symm (hnot _)
      accept_data := fun hlink hup' => pairwise_say (h.accept_data hlink hup') fun a _ _ k p hkp =>
        hdata k p hkp
      flow := fun hlink hup' => by
        have hflow := h.flow hlink hup'
        exact
          { hflow with
            acks := forall_say hflow.acks fun r hr => by
              obtain rfl : y.got.length = r := Option.some_inj.mp (hnr.symm.trans hr)
              exact Nat.le_refl _ } }

theorem take (h : Dir R x y) (hroom : x.sent.length < x.acked + x.window) (payload : α) :
    Dir R (x.take payload) y := by
  have hlength : (x.take payload).sent.length = x.sent.length + 1 := List.length_append
  exact
    { h with
      acked_le := by
        have hle := h.acked_le
        change x.acked ≤ (x.take payload).sent.length
        omega
      sent_le := by
        change (x.take payload).sent.length ≤ x.acked + x.window
        omega
      flow := fun hlink hup => by
        have hflow := h.flow hlink hup
        have hgot := hflow.got_le
        exact
          { hflow with
            got_le := by omega
            data := fun m hm k p hkp => by
              obtain ⟨hk, hold, hexact⟩ := hflow.data m hm k p hkp
              refine ⟨by omega, hold, fun he hopen => ?_⟩
              exact (List.getElem?_append_left hk).trans (hexact he hopen)
            got := fun he => by
              have htake : (x.take payload).sent.take y.got.length = x.sent.take y.got.length :=
                List.take_append_of_le_length hgot
              rw [htake]
              exact hflow.got he } }

theorem take_far (h : Dir R x y) (payload : α) : Dir R x (y.take payload) := by
  have hlength : (y.take payload).sent.length = y.sent.length + 1 := List.length_append
  exact
    { h with
      accept_data := fun hlink hup => (h.accept_data hlink hup).imp fun hab heq k p hkp => by
        obtain ⟨hk, hexact⟩ := hab heq k p hkp
        refine ⟨by omega, fun he hopen => ?_⟩
        exact (List.getElem?_append_left hk).trans (hexact he hopen)
      flow := fun hlink hup => { h.flow hlink hup with }
      ack_window := fun hup m hm r hr => by
        obtain ⟨hacked, hsent⟩ := h.ack_window hup m hm r hr
        exact ⟨hacked, by omega⟩ }

/-- A command of the peer, by which it begins to open or to close. -/
theorem command (h : Dir R x y) {link : Link} {m : Nat → Msg α}
    (hm : link = .opening ∧ m = .setup ∨ link = .closing ∧ m = .release ∧ ∀ n, .setup n ∉ x.out) :
    Dir R (x.command link m) y := by
  have hcommand : ∀ n, (m n).command? = some n := by
    rcases hm with ⟨-, rfl⟩ | ⟨-, rfl, -⟩ <;> exact fun _ => rfl
  have hnr : ∀ n, (m n).nr? = none := by
    rcases hm with ⟨-, rfl⟩ | ⟨-, rfl, -⟩ <;> exact fun _ => rfl
  have hheard := h.heard_le
  have hup : link ≠ .up := by rcases hm with ⟨rfl, -⟩ | ⟨rfl, -, -⟩ <;> decide
  have hold {n : Nat} (hn : m (x.commands + 1) = .release n) : link = .closing := by
    rcases hm with ⟨rfl, rfl⟩ | ⟨rfl, -, -⟩
    · exact absurd hn (by simp)
    · rfl
  exact
    { h with
      heard_le := Nat.le_succ_of_le hheard
      command_new := forall_say
        (fun a ha n hn => by
          obtain ⟨hlt, hle⟩ := h.command_new a ha n hn
          exact ⟨hlt, Nat.le_succ_of_le hle⟩)
        (fun n hn => by
          obtain rfl : x.commands + 1 = n := Option.some_inj.mp ((hcommand _).symm.trans hn)
          exact ⟨Nat.lt_succ_of_le hheard, Nat.le_refl _⟩)
      command_sorted := pairwise_say h.command_sorted fun a ha n n' hn hn' => by
        obtain rfl : x.commands + 1 = n' := Option.some_inj.mp ((hcommand _).symm.trans hn')
        exact Nat.lt_succ_of_le (h.command_new a ha n hn).2
      release_lt := fun hlink n hn => by
        have hlink : link = .opening := hlink
        rcases List.mem_append.mp hn with hn | hn
        · exact Nat.lt_succ_of_le (h.command_new _ hn n rfl).2
        · rw [hold (List.mem_singleton.mp hn).symm] at hlink
          exact absurd hlink (by decide)
      setup_opening := fun n hn => by
        rcases hm with ⟨hlink, -⟩ | ⟨-, hrelease, hnone⟩
        · exact hlink
        · rcases List.mem_append.mp hn with hn | hn
          · exact absurd hn (hnone n)
          · rw [hrelease] at hn
            exact absurd (List.mem_singleton.mp hn) (by simp)
      setup_last := pairwise_say h.setup_last fun _ _ _ _ => hnr _
      quiet := fun _ heq => by
        have heq : y.heard = x.commands + 1 := heq
        omega
      accept_zero := fun _ => List.pairwise_of_forall_mem_list fun a ha b _ heq => by
        have hle := h.answer_le a ha (x.commands + 1) (by rw [heq]; rfl)
        omega
      accept_fresh := fun _ _ hmem => by
        have hle := h.answer_le _ hmem (x.commands + 1) rfl
        omega
      accept_data := fun _ _ => List.pairwise_of_forall_mem_list fun a ha b _ heq => by
        have hle := h.answer_le a ha (x.commands + 1) (by rw [heq]; rfl)
        omega
      flow := fun hlink => absurd hlink hup
      ack_window := fun hup => forall_say (h.ack_window hup) (by simp [hnr])
      ack_sorted := fun hup => pairwise_say (h.ack_sorted hup) (by simp [hnr]) }

theorem command_far (h : Dir R x y) {link : Link} {m : Nat → Msg α} (hup : link ≠ .up)
    (hm : m = .setup ∨ m = .release) : Dir R x (y.command link m) := by
  have hnr : ∀ n, (m n).nr? = none := by rcases hm with rfl | rfl <;> exact fun _ => rfl
  have hanswer : ∀ n, (m n).answer? = none := by rcases hm with rfl | rfl <;> exact fun _ => rfl
  exact
    { h with
      answer_le := forall_say h.answer_le (by simp [hanswer])
      accept_zero := fun hlink => pairwise_say (h.accept_zero hlink) (by simp [hnr])
      accept_fresh := fun _ hup' => absurd hup' hup
      accept_data := fun _ hup' => absurd hup' hup
      flow := fun _ hup' => absurd hup' hup
      ack_window := fun hup' => absurd hup' hup
      ack_sorted := fun hup' => absurd hup' hup }

/-- The peer leaves opening or its session. -/
theorem goto (h : Dir R x y) {link : Link} (hup : link ≠ .up) (hopening : link ≠ .opening)
    (hnone : ∀ n, .setup n ∉ x.out) : Dir R (x.goto link) y :=
  { h with
    release_lt := fun hlink => absurd hlink hopening
    setup_opening := fun n hn => absurd hn (hnone n)
    quiet := fun hlink => absurd hlink hopening
    accept_zero := fun hlink => absurd hlink hopening
    accept_fresh := fun hlink => absurd hlink hopening
    accept_data := fun hlink => absurd hlink hopening
    flow := fun hlink => absurd hlink hup }

theorem goto_far (h : Dir R x y) {link : Link} (hup : link ≠ .up) : Dir R x (y.goto link) :=
  { h with
    accept_fresh := fun _ hlink => absurd hlink hup
    accept_data := fun _ hlink => absurd hlink hup
    flow := fun _ hlink => absurd hlink hup
    ack_window := fun hlink => absurd hlink hup
    ack_sorted := fun hlink => absurd hlink hup }

theorem fresh (h : Dir R x y) (hup : x.link ≠ .up) : Dir R x.fresh y :=
  { h with
    acked_le := Nat.le_refl 0
    sent_le := Nat.zero_le _
    flow := fun hlink => absurd hlink hup }

theorem fresh_far (h : Dir R x y) (hup : y.link ≠ .up) : Dir R x y.fresh :=
  { h with
    accept_fresh := fun _ hlink => absurd hlink hup
    accept_data := fun _ hlink => absurd hlink hup
    flow := fun _ hlink => absurd hlink hup
    ack_window := fun hlink => absurd hlink hup
    ack_sorted := fun hlink => absurd hlink hup }

/-- The peer begins a session while its partner is opening. -/
theorem begin (h : Dir R x y) (hfar : y.link = .opening) (hnone : ∀ n, .setup n ∉ x.out) :
    Dir R (x.fresh.goto .up) y := by
  have hnot : y.link ≠ .up := by
    rw [hfar]
    decide
  have hopening : Link.up ≠ .opening := by decide
  exact
    { h with
      acked_le := Nat.le_refl 0
      sent_le := Nat.zero_le _
      release_lt := fun hlink => absurd hlink hopening
      setup_opening := fun n hn => absurd hn (hnone n)
      quiet := fun hlink => absurd hlink hopening
      accept_zero := fun hlink => absurd hlink hopening
      accept_fresh := fun hlink => absurd hlink hopening
      accept_data := fun hlink => absurd hlink hopening
      flow := fun _ hup => absurd hup hnot }

/-- The partner does, before it has answered the last command. -/
theorem begin_far (h : Dir R x y) (hlink : x.link = .opening) (hnew : .accept x.commands ∉ y.out)
    (hnr : ∀ m ∈ x.out, m.nr? = none) : Dir R x (y.fresh.goto .up) := by
  have hnot : x.link ≠ .up := by
    rw [hlink]
    decide
  exact
    { h with
      accept_fresh := fun _ _ hmem => absurd hmem hnew
      accept_data := fun _ _ => List.pairwise_of_forall_mem_list fun a ha b _ heq =>
        absurd (heq ▸ ha) hnew
      flow := fun hup => absurd hup hnot
      ack_window := fun _ m hm r hr => by simp [hnr m hm] at hr
      ack_sorted := fun _ => List.pairwise_of_forall_mem_list fun a ha b _ r r' hr _ => by
        simp [hnr a ha] at hr }

theorem data?_eq_none {m : Msg α} (h : m.nr? = none) : m.data? = none := by
  cases m <;> simp_all [Msg.nr?, Msg.data?]

theorem pop (h : Dir R x y) {m : Msg α} {rest : List (Msg α)} (hout : y.out = m :: rest) :
    Dir R x { y with out := rest } :=
  h.sublist (List.Sublist.refl _) (hout ▸ List.sublist_cons_self m rest)

theorem pop_far (h : Dir R y x) {m : Msg α} {rest : List (Msg α)} (hout : y.out = m :: rest) :
    Dir R { y with out := rest } x :=
  h.sublist (hout ▸ List.sublist_cons_self m rest) (List.Sublist.refl _)

/-- The residue of an acknowledgement to an open session determines it. -/
theorem advance_eq (h : Dir R x y) (h' : Dir R y x) (hup : x.link = .up) {m : Msg α} {r : Nat}
    (hm : m ∈ y.out) (hr : m.nr? = some r) :
    Serial.advance R.modulus x.acked (r % R.modulus) = r ∧ x.acked ≤ r ∧ r ≤ x.sent.length := by
  obtain ⟨hle, hle'⟩ := h'.ack_window hup m hm r hr
  have hsent := h.sent_le
  have hwindow := h.window_lt
  have hmod : r % R.modulus < R.modulus := Nat.mod_lt _ (by omega)
  exact ⟨Serial.advance_eq hmod hle (by omega) rfl, hle, hle'⟩

/-- While the partner is opening and something numbered of its last session is on the way, its last
command is not answered. -/
theorem not_accepted (h : Dir R y x) (hlink : y.link = .opening) {m : Msg α} {r : Nat} (hm : m ∈ y.out)
    (hr : m.nr? = some r) : .accept y.commands ∉ x.out := by
  intro hmem
  have hle := h.answer_le _ hmem y.commands rfl
  have hnone := h.quiet hlink (Nat.le_antisymm h.heard_le hle) m hm
  rw [hr] at hnone
  exact absurd hnone (by simp)

theorem settle (h : Dir R x y) {m : Msg α} {rest : List (Msg α)} {r : Nat} (hout : y.out = m :: rest)
    (hr : m.nr? = some r) (hle : x.acked ≤ r) (hle' : r ≤ x.sent.length) :
    Dir R (x.settle r) { y with out := rest } :=
  { h.pop hout with
    acked_le := hle'
    sent_le := Nat.le_trans h.sent_le (Nat.add_le_add_right hle _)
    flow := fun hlink hup => by
      have hacks := (h.flow hlink hup).acks m (by rw [hout]; exact List.mem_cons_self) r hr
      exact
        { (h.pop hout).flow hlink hup with
          acked_le := hacks
          data := fun b hb k p hkp => by
            obtain ⟨hk, hold, hexact⟩ := (h.flow hlink hup).data b hb k p hkp
            exact ⟨hk, hold, fun he hopen => hexact he (Nat.le_trans hle hopen)⟩ } }

theorem settle_far (h : Dir R y x) {m : Msg α} {rest : List (Msg α)} {r : Nat}
    (hout : y.out = m :: rest) (hr : m.nr? = some r) : Dir R { y with out := rest } (x.settle r) := by
  have hm : m ∈ y.out := by
    rw [hout]
    exact List.mem_cons_self
  exact
    { h.pop_far hout with
      accept_fresh := fun hlink _ hmem => absurd hmem (h.not_accepted hlink hm hr)
      accept_data := fun hlink _ => List.pairwise_of_forall_mem_list fun a ha b _ heq =>
        absurd (heq ▸ ha) (h.not_accepted hlink hm hr)
      flow := fun hlink hup => { (h.pop_far hout).flow hlink hup with }
      ack_window := fun hup b hb r' hr' => by
        have hsorted := h.ack_sorted hup
        rw [hout] at hsorted
        refine ⟨(List.pairwise_cons.mp hsorted).1 b hb r r' hr hr', ?_⟩
        exact (h.ack_window hup b (by rw [hout]; exact List.mem_cons_of_mem m hb) r' hr').2 }

theorem receive (h : Dir R x y) (payload : α) : Dir R (x.receive payload) y :=
  { h with flow := fun hlink hup => { h.flow hlink hup with } }

/-- The partner receives what it expects. -/
theorem receive_far (h : Dir R y x) {k : Nat} {payload : α}
    (hnew : y.link = .opening → .accept y.commands ∉ x.out)
    (hnext : y.link = .up → x.link = .up → k = x.got.length ∧ k < y.sent.length ∧
      (R.exact → y.sent[k]? = some payload) ∧
      ∀ b ∈ y.out, ∀ k' p', b.data? = some (k', p') → k + 1 < k' + R.modulus) :
    Dir R y (x.receive payload) := by
  have hlength : (x.receive payload).got.length = x.got.length + 1 := List.length_append
  exact
    { h with
      accept_fresh := fun hlink _ hmem => absurd hmem (hnew hlink)
      flow := fun hlink hup => by
        have hflow := h.flow hlink hup
        obtain ⟨hk, hlt, hexact, hordered⟩ := hnext hlink hup
        have hacked := hflow.acked_le
        refine
          { hflow with
            acked_le := by omega
            got_le := by omega
            data := fun b hb k' p' hkp => ?_
            acks := fun b hb r hr => ?_
            got := fun he => ?_ }
        · obtain ⟨hlt', -, hexact'⟩ := hflow.data b hb k' p' hkp
          have horder := hordered b hb k' p' hkp
          exact ⟨hlt', by omega, hexact'⟩
        · have hle := hflow.acks b hb r hr
          omega
        · have hget := hexact he
          rw [hk] at hget
          rw [hlength, List.take_add_one, ← hflow.got he, hget]
          rfl }

theorem hear (h : Dir R x y) (n : Nat) : Dir R (x.hear n) y :=
  { h with flow := fun hlink hup => { h.flow hlink hup with } }

/-- The partner hears the first command on the way. -/
theorem hear_far (h : Dir R y x) {m : Msg α} {rest : List (Msg α)} {n : Nat} (hout : y.out = m :: rest)
    (hn : m.command? = some n) (hquiet : y.link = .opening → n = y.commands →
      ∀ b ∈ rest, b.nr? = none) : Dir R { y with out := rest } (x.hear n) := by
  have hm : m ∈ y.out := by
    rw [hout]
    exact List.mem_cons_self
  obtain ⟨hlt, hle⟩ := h.command_new m hm n hn
  have hsorted := h.command_sorted
  rw [hout] at hsorted
  exact
    { h.pop_far hout with
      heard_le := hle
      command_new := fun b hb n' hn' => by
        refine ⟨(List.pairwise_cons.mp hsorted).1 b hb n n' hn hn', ?_⟩
        exact (h.command_new b (by rw [hout]; exact List.mem_cons_of_mem m hb) n' hn').2
      answer_le := fun b hb n' hn' => Nat.le_trans (h.answer_le b hb n' hn') (Nat.le_of_lt hlt)
      quiet := fun hlink heq => hquiet hlink heq
      flow := fun hlink hup => { (h.pop_far hout).flow hlink hup with } }

/-- The answer to the last command is the first message on the way. -/
theorem heard_of_accept (h : Dir R x y) {rest : List (Msg α)}
    (hout : y.out = .accept x.commands :: rest) : y.heard = x.commands :=
  Nat.le_antisymm h.heard_le (h.answer_le _ (by rw [hout]; exact List.mem_cons_self) _ rfl)

theorem numbers_of_accept (h : Dir R x y) (hlink : x.link = .opening) {rest : List (Msg α)}
    (hout : y.out = .accept x.commands :: rest) : ∀ b ∈ rest, ∀ r, b.nr? = some r → r = 0 := by
  have hzero := h.accept_zero hlink
  rw [hout] at hzero
  exact fun b hb r hr => (List.pairwise_cons.mp hzero).1 b hb rfl r hr

theorem accepted (h : Dir R x y) (hlink : x.link = .opening) {rest : List (Msg α)}
    (hout : y.out = .accept x.commands :: rest) :
    Dir R (x.fresh.goto .up) { y with out := rest } := by
  have hheard := h.heard_of_accept hout
  have hquiet := h.quiet hlink hheard
  have hopening : Link.up ≠ .opening := by decide
  exact
    { h.pop hout with
      acked_le := Nat.le_refl 0
      sent_le := Nat.zero_le _
      release_lt := fun hlink => absurd hlink hopening
      setup_opening := fun n hn => by
        have hnew := h.command_new _ hn n rfl
        omega
      quiet := fun hlink => absurd hlink hopening
      accept_zero := fun hlink => absurd hlink hopening
      accept_fresh := fun hlink => absurd hlink hopening
      accept_data := fun hlink => absurd hlink hopening
      flow := fun _ hup => by
        obtain ⟨-, hgot⟩ := h.accept_fresh hlink hup (by rw [hout]; exact List.mem_cons_self)
        exact
          { acked_le := Nat.zero_le _
            got_le := by
              change y.got.length ≤ 0
              rw [hgot]
              exact Nat.le_refl 0
            data := fun m hm k p hkp => by simp [data?_eq_none (hquiet m hm)] at hkp
            ordered := List.pairwise_of_forall_mem_list fun a ha b _ k p _ _ hkp _ => by
              simp [data?_eq_none (hquiet a ha)] at hkp
            acks := fun m hm r hr => by
              rw [h.numbers_of_accept hlink hout m hm r hr]
              exact Nat.zero_le _
            got := fun _ => by
              change y.got = _
              rw [hgot]
              rfl } }

theorem accepted_far (h : Dir R y x) (h' : Dir R x y) (hlink : x.link = .opening) {rest : List (Msg α)}
    (hout : y.out = .accept x.commands :: rest) :
    Dir R { y with out := rest } (x.fresh.goto .up) := by
  have hquiet := h'.quiet hlink (h'.heard_of_accept hout)
  have hzero := h'.numbers_of_accept hlink hout
  exact
    { h.pop_far hout with
      accept_fresh := fun _ _ _ => ⟨rfl, rfl⟩
      accept_data := fun _ _ => List.pairwise_of_forall_mem_list fun a _ b hb _ k p hkp => by
        simp [data?_eq_none (hquiet b hb)] at hkp
      flow := fun hup _ => by
        obtain ⟨hacked, -⟩ := h'.accept_fresh hlink hup (by rw [hout]; exact List.mem_cons_self)
        have hdata := h'.accept_data hlink hup
        rw [hout] at hdata
        have hfirst := (List.pairwise_cons.mp hdata).1
        have hsent := h.sent_le
        have hwindow := h.window_lt
        exact
          { acked_le := by
              change y.acked ≤ 0
              rw [hacked]
            got_le := Nat.zero_le _
            data := fun m hm k p hkp => by
              obtain ⟨hk, hexact⟩ := hfirst m hm rfl k p hkp
              exact ⟨hk, Nat.lt_of_lt_of_le (Nat.zero_lt_of_lt hwindow) (Nat.le_add_left _ _), hexact⟩
            ordered := List.pairwise_of_forall_mem_list fun a ha b _ k p k' p' hkp _ => by
              have hk := (hfirst a ha rfl k p hkp).1
              omega
            acks := fun m hm r hr => by simp [hquiet m hm] at hr
            got := fun _ => rfl }
      ack_window := fun _ m hm r hr => by
        rw [hzero m hm r hr]
        exact ⟨Nat.le_refl 0, Nat.le_refl 0⟩
      ack_sorted := fun _ => List.pairwise_of_forall_mem_list fun a ha b hb r r' hr hr' => by
        rw [hzero a ha r hr, hzero b hb r' hr'] }

end Dir

/-! ### The invariant of a connection -/

/-- Both directions. -/
structure Inv (R : Rules) (n : Net α) : Prop where
  near : Dir R n.near n.far
  far : Dir R n.far n.near

theorem Inv.swap {n : Net α} (h : Inv R n) : Inv R n.swap := ⟨h.far, h.near⟩

/-- An acknowledgement is as the sender meant it, and what comes with it keeps both directions. -/
theorem Inv.handleAck (h : Inv R ⟨x, y⟩) (hup : x.link = .up) {m : Msg α} {rest : List (Msg α)} {r : Nat}
    (hout : y.out = m :: rest) (hr : m.nr? = some r) {next : Peer α → Peer α}
    (hnext : Inv R ⟨x.settle r, { y with out := rest }⟩ →
      Inv R ⟨next (x.settle r), { y with out := rest }⟩) :
    Inv R ⟨handleAck R x r next, { y with out := rest }⟩ := by
  have hm : m ∈ y.out := by
    rw [hout]
    exact List.mem_cons_self
  obtain ⟨hadvance, hle, hle'⟩ := h.near.advance_eq h.far hup hm hr
  have hstep : DataLink.handleAck R x r next = next (x.settle r) := by
    simp only [DataLink.handleAck, hadvance, if_pos hle']
  rw [hstep]
  exact hnext ⟨h.near.settle hout hr hle hle', h.far.settle_far hout hr⟩

theorem Inv.pop (h : Inv R ⟨x, y⟩) {m : Msg α} {rest : List (Msg α)} (hout : y.out = m :: rest) :
    Inv R ⟨x, { y with out := rest }⟩ :=
  ⟨h.near.pop hout, h.far.pop_far hout⟩

/-- A message that is neither a command nor numbered keeps both directions, if it is no answer or
answers what was heard; an acceptance is not said to a partner that is opening by a peer that is up. -/
theorem Inv.say_plain (h : Inv R ⟨x, y⟩) {m : Msg α} (hnr : m.nr? = none) (hcommand : m.command? = none)
    (hanswer : ∀ n, m.answer? = some n → n ≤ x.heard)
    (haccept : y.link = .opening → x.link = .up → m = .accept y.commands → x.acked = 0 ∧ x.got = []) :
    Inv R ⟨x.say m, y⟩ :=
  ⟨h.near.say_plain hnr (Dir.data?_eq_none hnr) hcommand,
    h.far.say_plain_far hnr (Dir.data?_eq_none hnr) hanswer haccept⟩

/-- Leaving a session or an attempt. -/
theorem Inv.goto (h : Inv R ⟨x, y⟩) {link : Link} (hup : link ≠ .up) (hopening : link ≠ .opening)
    (hnone : ∀ n, .setup n ∉ x.out) : Inv R ⟨x.goto link, y⟩ :=
  ⟨h.near.goto hup hopening hnone, h.far.goto_far hup⟩

theorem Inv.fresh (h : Inv R ⟨x, y⟩) (hup : x.link ≠ .up) : Inv R ⟨x.fresh, y⟩ :=
  ⟨h.near.fresh hup, h.far.fresh_far hup⟩

theorem Inv.not_setup (h : Inv R ⟨x, y⟩) (hlink : x.link ≠ .opening) (n : Nat) : .setup n ∉ x.out :=
  fun hn => hlink (h.near.setup_opening n hn)

theorem Inv.handle_data (h : Inv R ⟨x, y⟩) {k r : Nat} {payload : α} {rest : List (Msg α)}
    (hout : y.out = .data k payload r :: rest) :
    Inv R ⟨handle R x (.data k payload r), { y with out := rest }⟩ := by
  unfold handle
  cases hlink : x.link with
  | down | opening | broken | closing => exact h.pop hout
  | up =>
      refine h.handleAck hlink hout rfl fun hsettled => ?_
      have hm : Msg.data k payload r ∈ y.out := by
        rw [hout]
        exact List.mem_cons_self
      split_ifs with hk
      · refine ⟨hsettled.near.receive payload, hsettled.far.receive_far (k := k) ?_ ?_⟩
        · exact fun hopening => h.far.not_accepted hopening hm rfl
        · intro hup _
          have hflow : Flow R y x := h.far.flow hup hlink
          obtain ⟨hlt, hold, hexact⟩ := hflow.data _ hm k payload rfl
          have hacked := hflow.acked_le
          have hsent : y.sent.length ≤ y.acked + y.window := h.far.sent_le
          have hwindow : y.window < R.modulus := h.far.window_lt
          have heq : k = x.got.length := by
            rcases Nat.le_total k x.got.length with hle | hle
            · exact Serial.eq_of_mod_eq (Nat.le_refl k) (by omega) hle hold hk
            · exact Serial.eq_of_mod_eq hle (by omega) (Nat.le_refl _) (by omega) hk
          have hordered := hflow.ordered
          rw [hout] at hordered
          refine ⟨heq, hlt, fun he => hexact he (by omega), fun b hb k' p' hkp => ?_⟩
          exact (List.pairwise_cons.mp hordered).1 b hb k payload k' p' rfl hkp
      · exact hsettled

theorem Inv.handle_ack (h : Inv R ⟨x, y⟩) {r : Nat} {poll : Bool} {rest : List (Msg α)}
    (hout : y.out = .ack r poll :: rest) :
    Inv R ⟨handle R x (.ack r poll), { y with out := rest }⟩ := by
  unfold handle
  cases hlink : x.link with
  | down | opening | broken => exact h.pop hout
  | up => exact h.handleAck hlink hout rfl fun hsettled => hsettled
  | closing =>
      simp only
      split_ifs
      · refine (h.pop hout).say_plain rfl rfl (fun n hn => ?_) fun _ hup => ?_
        · exact Nat.le_of_eq (Option.some_inj.mp hn).symm
        · rw [hlink] at hup
          exact absurd hup (by decide)
      · exact h.pop hout

/-- What a set-up command finds and leaves. -/
theorem Inv.hear_setup (h : Inv R ⟨x, y⟩) {n : Nat} {rest : List (Msg α)}
    (hout : y.out = .setup n :: rest) :
    Inv R ⟨x.hear n, { y with out := rest }⟩ ∧ y.link = .opening ∧ .accept y.commands ∉ x.out ∧
      ∀ m ∈ rest, m.nr? = none := by
  have hm : Msg.setup n ∈ y.out := by
    rw [hout]
    exact List.mem_cons_self
  have hlast := h.far.setup_last
  rw [hout] at hlast
  have hnone : ∀ m ∈ rest, m.nr? = none := fun m hm => (List.pairwise_cons.mp hlast).1 m hm n rfl
  refine ⟨⟨(h.near.pop hout).hear n, h.far.hear_far hout rfl fun _ _ => hnone⟩,
    h.far.setup_opening n hm, fun hmem => ?_, hnone⟩
  have hle : y.commands ≤ x.heard := h.far.answer_le _ hmem y.commands rfl
  have hnew : x.heard < n ∧ n ≤ y.commands := h.far.command_new _ hm n rfl
  omega

theorem Inv.handle_setup (h : Inv R ⟨x, y⟩) {n : Nat} {rest : List (Msg α)}
    (hout : y.out = .setup n :: rest) :
    Inv R ⟨handle R x (.setup n), { y with out := rest }⟩ := by
  obtain ⟨hheard, hopening, hnew, hnone⟩ := h.hear_setup hout
  have hbegin (hlink : x.link ≠ .opening) :
      Inv R ⟨(((x.hear n).fresh).goto .up).say (.accept n), { y with out := rest }⟩ := by
    have hopen : Inv R ⟨((x.hear n).fresh).goto .up, { y with out := rest }⟩ :=
      ⟨hheard.near.begin hopening (h.not_setup hlink), hheard.far.begin_far hopening hnew hnone⟩
    refine hopen.say_plain rfl rfl (fun n' hn => ?_) fun _ _ _ => ⟨rfl, rfl⟩
    exact Nat.le_of_eq (Option.some_inj.mp hn).symm
  have hanswer {m : Msg α} (hm : m = .accept n ∨ m = .refuse n) (hlink : x.link ≠ .up) :
      Inv R ⟨(x.hear n).say m, { y with out := rest }⟩ := by
    refine hheard.say_plain ?_ ?_ (fun n' hn => ?_) fun _ hup => absurd hup hlink
    · rcases hm with rfl | rfl <;> rfl
    · rcases hm with rfl | rfl <;> rfl
    · have heq : m.answer? = some n := by rcases hm with rfl | rfl <;> rfl
      exact Nat.le_of_eq (Option.some_inj.mp (hn.symm.trans heq))
  unfold handle
  cases hlink : x.link with
  | down | broken | up => exact hbegin (by simp [hlink])
  | opening => exact hanswer (Or.inl rfl) (by simp [hlink])
  | closing => exact hanswer (Or.inr rfl) (by simp [hlink])

theorem Inv.handle_release (h : Inv R ⟨x, y⟩) {n : Nat} {rest : List (Msg α)}
    (hout : y.out = .release n :: rest) :
    Inv R ⟨handle R x (.release n), { y with out := rest }⟩ := by
  have hm : Msg.release n ∈ y.out := by
    rw [hout]
    exact List.mem_cons_self
  have hheard : Inv R ⟨x.hear n, { y with out := rest }⟩ := by
    refine ⟨(h.near.pop hout).hear n, h.far.hear_far hout rfl fun hlink heq => ?_⟩
    have hlt := h.far.release_lt hlink n hm
    omega
  have hanswer {x' : Peer α} (hx' : Inv R ⟨x', { y with out := rest }⟩) (hn : x'.heard = n)
      {m : Msg α} (hm : m = .accept n ∨ m = .refuse n) (hlink : x'.link ≠ .up) :
      Inv R ⟨x'.say m, { y with out := rest }⟩ := by
    refine hx'.say_plain ?_ ?_ (fun n' hn' => ?_) fun _ hup => absurd hup hlink
    · rcases hm with rfl | rfl <;> rfl
    · rcases hm with rfl | rfl <;> rfl
    · have heq : m.answer? = some n := by rcases hm with rfl | rfl <;> rfl
      rw [hn]
      exact Nat.le_of_eq (Option.some_inj.mp (hn'.symm.trans heq))
  unfold handle
  cases hlink : x.link with
  | down | closing => exact hanswer hheard rfl (Or.inl rfl) (by simp [Peer.hear, hlink])
  | opening => exact hanswer hheard rfl (Or.inr rfl) (by simp [Peer.hear, hlink])
  | broken => exact hheard
  | up =>
      have hleft : Inv R ⟨(x.hear n).goto .down, { y with out := rest }⟩ :=
        hheard.goto (by decide) (by decide) (h.not_setup (by simp [hlink]))
      exact hanswer (hleft.fresh (by simp [Peer.goto])) rfl (Or.inl rfl)
        (by simp [Peer.fresh, Peer.goto])

theorem Inv.handle_accept (h : Inv R ⟨x, y⟩) {n : Nat} {rest : List (Msg α)}
    (hout : y.out = .accept n :: rest) (hn : x.link = .opening → n = x.commands) :
    Inv R ⟨handle R x (.accept n), { y with out := rest }⟩ := by
  unfold handle
  cases hlink : x.link with
  | down | broken => exact h.pop hout
  | opening =>
      rw [hn hlink] at hout
      exact ⟨h.near.accepted hlink hout, h.far.accepted_far h.near hlink hout⟩
  | closing => exact (h.pop hout).goto (by decide) (by decide) (h.not_setup (by simp [hlink]))
  | up =>
      refine (h.pop hout).say_plain rfl rfl (fun n' hn' => ?_) fun _ _ heq => ?_
      · exact absurd hn' (by simp [Msg.answer?])
      · exact absurd heq (by simp)

theorem Inv.handle_refuse (h : Inv R ⟨x, y⟩) {n : Nat} {rest : List (Msg α)}
    (hout : y.out = .refuse n :: rest) (hn : x.link = .opening → ∀ n', .setup n' ∉ x.out) :
    Inv R ⟨handle R x (.refuse n), { y with out := rest }⟩ := by
  unfold handle
  cases hlink : x.link with
  | down | broken => exact h.pop hout
  | opening => exact (h.pop hout).goto (by decide) (by decide) (hn hlink)
  | closing => exact (h.pop hout).goto (by decide) (by decide) (h.not_setup (by simp [hlink]))
  | up =>
      have hleft : Inv R ⟨x.goto .down, { y with out := rest }⟩ :=
        (h.pop hout).goto (by decide) (by decide) (h.not_setup (by simp [hlink]))
      exact hleft.fresh (by simp [Peer.goto])

theorem Inv.handle_reject (h : Inv R ⟨x, y⟩) {rest : List (Msg α)} (hout : y.out = .reject :: rest) :
    Inv R ⟨handle R x .reject, { y with out := rest }⟩ := by
  unfold handle
  cases hlink : x.link with
  | down | broken | opening | closing => exact h.pop hout
  | up =>
      have hleft : Inv R ⟨x.goto .broken, { y with out := rest }⟩ :=
        (h.pop hout).goto (by decide) (by decide) (h.not_setup (by simp [hlink]))
      exact hleft.fresh (by simp [Peer.goto])

/-- What is said, lost and heard in a session keeps the invariant. -/
theorem Inv.talk {n n' : Net α} (h : Inv R n) (htalk : Talk R n n') : Inv R n' := by
  cases htalk with
  | @push x y payload hup hroom =>
      have htaken : Inv R ⟨x.take payload, y⟩ := ⟨h.near.take hroom payload, h.far.take_far payload⟩
      have hlength : (x.take payload).sent.length = x.sent.length + 1 := List.length_append
      have hget : (x.take payload).sent[x.sent.length]? = some payload := by
        simp [Peer.take]
      have hwindow : x.sent.length + 1 ≤ x.sent.length + x.window := by
        have hacked := h.near.acked_le
        change x.acked ≤ x.sent.length at hacked
        omega
      refine ⟨htaken.near.say_numbered htaken.far hup rfl ?_, htaken.far.say_numbered_far hup rfl ?_⟩
      · rintro k p hkp
        obtain ⟨rfl, rfl⟩ := Prod.mk.inj (Option.some_inj.mp hkp)
        exact ⟨by rw [hlength]; exact Nat.lt_succ_self _, by rw [hlength]; exact hwindow, fun _ _ => hget⟩
      · rintro k p hkp
        obtain ⟨rfl, rfl⟩ := Prod.mk.inj (Option.some_inj.mp hkp)
        exact ⟨by rw [hlength]; exact Nat.lt_succ_self _, fun _ _ => hget⟩
  | @resend x y k payload hup hk hwindow hexact =>
      refine ⟨h.near.say_numbered h.far hup rfl ?_, h.far.say_numbered_far hup rfl ?_⟩
      · rintro k p hkp
        obtain ⟨rfl, rfl⟩ := Prod.mk.inj (Option.some_inj.mp hkp)
        exact ⟨hk, hwindow, hexact⟩
      · rintro k p hkp
        obtain ⟨rfl, rfl⟩ := Prod.mk.inj (Option.some_inj.mp hkp)
        exact ⟨hk, hexact⟩
  | @ack x y poll hup hpoll =>
      refine ⟨h.near.say_numbered h.far hup rfl ?_, h.far.say_numbered_far hup rfl ?_⟩
      · exact fun k p hkp => absurd hkp (by simp [Msg.data?])
      · exact fun k p hkp => absurd hkp (by simp [Msg.data?])
  | @lose x y left right m hout hlossy =>
      have hsub : (left ++ right).Sublist x.out := by
        rw [hout]
        exact (List.Sublist.refl left).append (List.sublist_cons_self m right)
      exact ⟨h.near.sublist hsub (List.Sublist.refl _), h.far.sublist (List.Sublist.refl _) hsub⟩
  | @recv x y m rest hout haccept hrefuse =>
      cases m with
      | data k payload r => exact h.handle_data hout
      | ack r poll => exact h.handle_ack hout
      | setup n => exact h.handle_setup hout
      | release n => exact h.handle_release hout
      | accept n => exact h.handle_accept hout fun hlink => haccept hlink n rfl
      | refuse n => exact h.handle_refuse hout fun hlink => hrefuse hlink n rfl
      | reject => exact h.handle_reject hout

/-- A step of the near peer keeps the invariant. -/
theorem Inv.act {n n' : Net α} (h : Inv R n) (hact : Act R n n') : Inv R n' := by
  cases hact with
  | talk htalk => exact h.talk htalk
  | @setup x y hlink =>
      exact ⟨h.near.command (Or.inl ⟨rfl, rfl⟩), h.far.command_far (by decide) (Or.inl rfl)⟩
  | @release x y hlink =>
      have hnone : ∀ n, .setup n ∉ x.out := by
        refine h.not_setup ?_
        rcases hlink with hlink | hlink | ⟨-, hlink⟩ <;> simp [hlink]
      exact ⟨h.near.command (Or.inr ⟨rfl, rfl, hnone⟩), h.far.command_far (by decide) (Or.inr rfl)⟩
  | @giveUp x y htimed hclear =>
      have hnone : ∀ n, .setup n ∉ x.out := fun n hn => hclear (h.near.setup_opening n hn) n hn
      exact (h.goto (by decide) (by decide) hnone).fresh (by simp [Peer.goto])
  | @complain x y htimed hlink =>
      refine h.say_plain rfl rfl (fun n hn => ?_) fun _ _ heq => ?_
      · exact absurd hn (by simp [Msg.answer?])
      · exact absurd heq (by simp)

/-- A step of either peer does. -/
theorem Inv.step {n n' : Net α} (h : Inv R n) (hstep : Step R n n') : Inv R n' := by
  rcases hstep with hact | hact
  · exact h.act hact
  · exact (h.swap.act hact).swap

/-- So do any number of steps. -/
theorem Inv.steps {n n' : Net α} (h : Inv R n) (hsteps : Relation.ReflTransGen (Step R) n n') : Inv R n' := by
  induction hsteps with
  | refl => exact h
  | tail _ hstep ih => exact ih.step hstep

/-- Two peers with nothing between them, both down or both at the beginning of a session. -/
structure Start (R : Rules) (x y : Peer α) : Prop where
  link : x.link = .down ∧ y.link = .down ∨ x.link = .up ∧ y.link = .up
  window_lt : x.window < R.modulus
  sent : x.sent = []
  acked : x.acked = 0
  got : x.got = []
  heard_le : y.heard ≤ x.commands
  out : x.out = []

theorem Start.dir (h : Start R x y) (h' : Start R y x) : Dir R x y where
  window_lt := h.window_lt
  acked_le := by simp [h.acked]
  sent_le := by simp [h.sent]
  heard_le := h.heard_le
  command_new := by simp [h.out]
  command_sorted := by simp [h.out]
  answer_le := by simp [h'.out]
  release_lt := by simp [h.out]
  setup_opening := by simp [h.out]
  setup_last := by simp [h.out]
  quiet := by simp [h.out]
  accept_zero := by simp [h'.out]
  accept_fresh := by simp [h'.out]
  accept_data := by simp [h'.out]
  flow _ _ := ⟨by simp [h.acked], by simp [h'.got], by simp [h.out], by simp [h.out], by simp [h'.out],
    by simp [h'.got]⟩
  ack_window := by simp [h.out]
  ack_sorted := by simp [h.out]

/-- Both peers have a session open, and only payloads and acknowledgements are on the way. -/
structure Talking (n : Net α) : Prop where
  near : n.near.link = .up
  far : n.far.link = .up
  nearOut : ∀ m ∈ n.near.out, m.nr?.isSome = true
  farOut : ∀ m ∈ n.far.out, m.nr?.isSome = true

theorem Talking.swap {n : Net α} (h : Talking n) : Talking n.swap := ⟨h.far, h.near, h.farOut, h.nearOut⟩

/-- What carries an acknowledgement leaves the link and the channel of a peer in a session alone. -/
theorem Inv.handle_nr (h : Inv R ⟨x, y⟩) (hup : x.link = .up) {m : Msg α} (hm : m.nr?.isSome = true)
    {rest : List (Msg α)} (hout : y.out = m :: rest) :
    (handle R x m).link = .up ∧ (handle R x m).out = x.out := by
  have hmem : m ∈ y.out := by
    rw [hout]
    exact List.mem_cons_self
  have hack {r : Nat} (hr : m.nr? = some r) {next : Peer α → Peer α}
      (hnext : ∀ z, (next z).link = z.link ∧ (next z).out = z.out) :
      (DataLink.handleAck R x r next).link = .up ∧ (DataLink.handleAck R x r next).out = x.out := by
    obtain ⟨hadvance, -, hle⟩ := h.near.advance_eq h.far hup hmem hr
    have hle : r ≤ x.sent.length := hle
    simp only [DataLink.handleAck, hadvance, if_pos hle]
    obtain ⟨hlink, ho⟩ := hnext (x.settle r)
    exact ⟨hlink.trans hup, ho⟩
  cases m with
  | data k payload r =>
      simp only [handle, hup]
      refine hack rfl fun z => ?_
      split_ifs
      · exact ⟨rfl, rfl⟩
      · exact ⟨rfl, rfl⟩
  | ack r poll =>
      simp only [handle, hup]
      exact hack rfl fun z => ⟨rfl, rfl⟩
  | _ => exact absurd hm (by simp [Msg.nr?])

theorem Talking.talk {n n' : Net α} (hinv : Inv R n) (h : Talking n) (htalk : Talk R n n') : Talking n' := by
  have hsaid {l : List (Msg α)} {m : Msg α} (hl : ∀ m ∈ l, m.nr?.isSome = true) (hm : m.nr?.isSome = true) :
      ∀ m' ∈ l ++ [m], m'.nr?.isSome = true := by
    intro m' hm'
    rcases List.mem_append.mp hm' with hm' | hm'
    · exact hl m' hm'
    · exact List.mem_singleton.mp hm' ▸ hm
  cases htalk with
  | push | resend | ack => exact ⟨h.near, h.far, hsaid h.nearOut rfl, h.farOut⟩
  | @lose x y left right m hout _ =>
      have hsub : left ++ right ⊆ x.out := by
        rw [hout]
        exact List.append_subset.mpr ⟨List.subset_append_left _ _,
          fun m' hm' => List.mem_append_right _ (List.mem_cons_of_mem _ hm')⟩
      exact ⟨h.near, h.far, fun m' hm' => h.nearOut m' (hsub hm'), h.farOut⟩
  | @recv x y m rest hout _ _ =>
      have hm : m.nr?.isSome = true := h.farOut m (by rw [hout]; exact List.mem_cons_self)
      have hrest : rest ⊆ y.out := by
        rw [hout]
        exact List.subset_cons_self m rest
      obtain ⟨hlink, ho⟩ := hinv.handle_nr h.near hm hout
      refine ⟨hlink, h.far, fun m' hm' => ?_, fun m' hm' => h.farOut m' (hrest hm')⟩
      exact h.nearOut m' (ho ▸ hm')

/-- A session goes on, with its invariant, until one of the peers ends it. -/
theorem Talking.chats {n n' : Net α} (hinv : Inv R n) (h : Talking n)
    (hchats : Relation.ReflTransGen (Chat R) n n') : Inv R n' ∧ Talking n' := by
  induction hchats with
  | refl => exact ⟨hinv, h⟩
  | tail _ hchat ih =>
      obtain ⟨hinv', h'⟩ := ih
      rcases hchat with htalk | htalk
      · exact ⟨hinv'.talk htalk, h'.talk hinv' htalk⟩
      · exact ⟨(hinv'.swap.talk htalk).swap, (h'.swap.talk hinv'.swap htalk).swap⟩

end Agreement

end DataLink
