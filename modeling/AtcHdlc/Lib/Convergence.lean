import AtcHdlc.Lib.Agreement

/-! Opening and closing without losses and without timers. The commands and answers on the way and the
links of the two peers are always in one of the phases of `Phase`, which match every command with one
answer; with nothing on the way both links are up or both are down. -/

namespace DataLink

section Convergence

variable {α : Type}

/-- A message of an open session that asks for no answer. -/
inductive Numbered : Msg α → Prop where
  | data (k : Nat) (payload : α) (r : Nat) : Numbered (.data k payload r)
  | ack (r : Nat) : Numbered (.ack r false)

/-- Messages of an open session. -/
abbrev Exchange (l : List (Msg α)) : Prop := ∀ m ∈ l, Numbered m

/-- The links of two peers and what is on the way between them; in every phase but the last six the
second peer is as far as the first or one message behind. -/
inductive Phase (x y : Peer α) : Prop where
  | idle (hx : x.link = .down) (hy : y.link = .down) (hout : x.out = []) (hout' : y.out = [])
  | calling (hx : x.link = .opening) (hy : y.link = .down) (hout : x.out = [.setup x.commands])
      (hout' : y.out = [])
  | crossing (hx : x.link = .opening) (hy : y.link = .opening) (hout : x.out = [.setup x.commands])
      (hout' : y.out = [.setup y.commands])
  | answering (hx : x.link = .opening) (hy : y.link = .opening)
      (hout : x.out = [.setup x.commands, .accept y.commands]) (hout' : y.out = [])
  | answered (hx : x.link = .opening) (hy : y.link = .opening) (hout : x.out = [.accept y.commands])
      (hout' : y.out = [.accept x.commands])
  | accepted (d : List (Msg α)) (hx : x.link = .opening) (hy : y.link = .up) (hout : x.out = [])
      (hout' : y.out = .accept x.commands :: d) (hd : Exchange d)
  | session (hx : x.link = .up) (hy : y.link = .up) (hout : Exchange x.out) (hout' : Exchange y.out)
  | leaving (d : List (Msg α)) (n : Nat) (hx : x.link = .closing) (hy : y.link = .up)
      (hout : x.out = d ++ [.release n]) (hd : Exchange d) (hout' : Exchange y.out)
  | bothLeaving (d d' : List (Msg α)) (n n' : Nat) (hx : x.link = .closing) (hy : y.link = .closing)
      (hout : x.out = d ++ [.release n]) (hout' : y.out = d' ++ [.release n']) (hd : Exchange d)
      (hd' : Exchange d')
  | answeringLeave (d : List (Msg α)) (n n' : Nat) (hx : x.link = .closing) (hy : y.link = .closing)
      (hout : x.out = d ++ [.release n, .accept n']) (hout' : y.out = []) (hd : Exchange d)
  | bothLeft (n n' : Nat) (hx : x.link = .closing) (hy : y.link = .closing) (hout : x.out = [.accept n])
      (hout' : y.out = [.accept n'])
  | left (d : List (Msg α)) (n : Nat) (hx : x.link = .closing) (hy : y.link = .down) (hout : x.out = [])
      (hout' : y.out = d ++ [.accept n]) (hd : Exchange d)
  | acceptedLeaving (d : List (Msg α)) (n : Nat) (hx : x.link = .opening) (hy : y.link = .closing)
      (hout : x.out = []) (hout' : y.out = .accept x.commands :: (d ++ [.release n])) (hd : Exchange d)
  | recalling (d : List (Msg α)) (n : Nat) (hx : x.link = .opening) (hy : y.link = .closing)
      (hout : x.out = d ++ [.accept n, .setup x.commands]) (hout' : y.out = []) (hd : Exchange d)

/-- A phase, whichever of the two is first. -/
def Converging (n : Net α) : Prop := Phase n.near n.far ∨ Phase n.far n.near

theorem Converging.swap {n : Net α} (h : Converging n) : Converging n.swap := h.symm

variable {R : Rules} {x y : Peer α}

theorem exchange_nil : Exchange ([] : List (Msg α)) := fun _ hm => absurd hm List.not_mem_nil

theorem Exchange.snoc {l : List (Msg α)} (h : Exchange l) {m : Msg α} (hm : Numbered m) :
    Exchange (l ++ [m]) := by
  intro a ha
  rcases List.mem_append.mp ha with ha | ha
  · exact h a ha
  · rw [List.mem_singleton.mp ha]
    exact hm

theorem Exchange.tail {l : List (Msg α)} {m : Msg α} (h : Exchange (m :: l)) : Exchange l :=
  fun a ha => h a (List.mem_cons_of_mem m ha)

/-- Two states of a peer with the same link, commands and channel. -/
structure Same (x x' : Peer α) : Prop where
  link : x'.link = x.link
  commands : x'.commands = x.commands
  out : x'.out = x.out

theorem Phase.congr {x' y' : Peer α} (h : Phase x y) (hx : Same x x') (hy : Same y y') : Phase x' y' := by
  obtain ⟨hxl, hxc, hxo⟩ := hx
  obtain ⟨hyl, hyc, hyo⟩ := hy
  cases h with
  | idle h₁ h₂ h₃ h₄ => exact .idle (hxl.trans h₁) (hyl.trans h₂) (hxo.trans h₃) (hyo.trans h₄)
  | calling h₁ h₂ h₃ h₄ =>
      exact .calling (hxl.trans h₁) (hyl.trans h₂) (by rw [hxo, hxc, h₃]) (hyo.trans h₄)
  | crossing h₁ h₂ h₃ h₄ =>
      exact .crossing (hxl.trans h₁) (hyl.trans h₂) (by rw [hxo, hxc, h₃]) (by rw [hyo, hyc, h₄])
  | answering h₁ h₂ h₃ h₄ =>
      exact .answering (hxl.trans h₁) (hyl.trans h₂) (by rw [hxo, hxc, hyc, h₃]) (hyo.trans h₄)
  | answered h₁ h₂ h₃ h₄ =>
      exact .answered (hxl.trans h₁) (hyl.trans h₂) (by rw [hxo, hyc, h₃]) (by rw [hyo, hxc, h₄])
  | accepted d h₁ h₂ h₃ h₄ hd =>
      exact .accepted d (hxl.trans h₁) (hyl.trans h₂) (hxo.trans h₃) (by rw [hyo, hxc, h₄]) hd
  | session h₁ h₂ h₃ h₄ =>
      exact .session (hxl.trans h₁) (hyl.trans h₂) (by rw [hxo]; exact h₃) (by rw [hyo]; exact h₄)
  | leaving d n h₁ h₂ h₃ hd h₄ =>
      exact .leaving d n (hxl.trans h₁) (hyl.trans h₂) (hxo.trans h₃) hd (by rw [hyo]; exact h₄)
  | bothLeaving d d' n n' h₁ h₂ h₃ h₄ hd hd' =>
      exact .bothLeaving d d' n n' (hxl.trans h₁) (hyl.trans h₂) (hxo.trans h₃) (hyo.trans h₄) hd hd'
  | answeringLeave d n n' h₁ h₂ h₃ h₄ hd =>
      exact .answeringLeave d n n' (hxl.trans h₁) (hyl.trans h₂) (hxo.trans h₃) (hyo.trans h₄) hd
  | bothLeft n n' h₁ h₂ h₃ h₄ =>
      exact .bothLeft n n' (hxl.trans h₁) (hyl.trans h₂) (hxo.trans h₃) (hyo.trans h₄)
  | left d n h₁ h₂ h₃ h₄ hd =>
      exact .left d n (hxl.trans h₁) (hyl.trans h₂) (hxo.trans h₃) (hyo.trans h₄) hd
  | acceptedLeaving d n h₁ h₂ h₃ h₄ hd =>
      exact .acceptedLeaving d n (hxl.trans h₁) (hyl.trans h₂) (hxo.trans h₃) (by rw [hyo, hxc, h₄]) hd
  | recalling d n h₁ h₂ h₃ h₄ hd =>
      exact .recalling d n (hxl.trans h₁) (hyl.trans h₂) (by rw [hxo, hxc, h₃]) (hyo.trans h₄) hd

/-- A numbered message changes nothing that a phase sees of a peer that is up or closing. -/
theorem Inv.handle_numbered (h : Inv R ⟨x, y⟩) (hlink : x.link = .up ∨ x.link = .closing) {m : Msg α}
    (hm : Numbered m) {rest : List (Msg α)} (hout : y.out = m :: rest) : Same x (handle R x m) := by
  have hmem : m ∈ y.out := by
    rw [hout]
    exact List.mem_cons_self
  rcases hlink with hup | hclosing
  · have hack {r : Nat} (hr : m.nr? = some r) {next : Peer α → Peer α}
        (hnext : ∀ z, Same z (next z)) : Same x (DataLink.handleAck R x r next) := by
      obtain ⟨hadvance, -, hle⟩ := h.near.advance_eq h.far hup hmem hr
      have hle : r ≤ x.sent.length := hle
      simp only [DataLink.handleAck, hadvance, if_pos hle]
      obtain ⟨hl, hc, ho⟩ := hnext (x.settle r)
      exact ⟨hl, hc, ho⟩
    cases hm with
    | data k payload r =>
        simp only [handle, hup]
        refine hack rfl fun z => ?_
        split_ifs <;> exact ⟨rfl, rfl, rfl⟩
    | ack r =>
        simp only [handle, hup]
        exact hack rfl fun z => ⟨rfl, rfl, rfl⟩
  · cases hm with
    | data k payload r =>
        simp only [handle, hclosing]
        exact ⟨rfl, rfl, rfl⟩
    | ack r =>
        simp only [handle, hclosing, Bool.false_eq_true, if_false]
        exact ⟨rfl, rfl, rfl⟩

/-- A peer that is up says something of its session. -/
theorem Converging.say (h : Converging ⟨x, y⟩) (hup : x.link = .up) {m : Msg α} (hm : Numbered m) :
    Converging ⟨x.say m, y⟩ := by
  rcases h with h | h
  · cases h with
    | session hx hy hout hout' => exact Or.inl (.session hx hy (hout.snoc hm) hout')
    | idle hx | calling hx | crossing hx | answering hx | answered hx | accepted _ hx | leaving _ _ hx
    | bothLeaving _ _ _ _ hx | answeringLeave _ _ _ hx | bothLeft _ _ hx | left _ _ hx
    | acceptedLeaving _ _ hx | recalling _ _ hx =>
        have hne := hup.symm.trans hx
        exact absurd hne (by decide)
  · cases h with
    | accepted d hy hx hout hout' hd =>
        refine Or.inr (.accepted (d ++ [m]) hy hx hout ?_ (hd.snoc hm))
        exact congrArg (· ++ [m]) hout'
    | session hy hx hout hout' => exact Or.inr (.session hy hx hout (hout'.snoc hm))
    | leaving d n hy hx hout hd hout' => exact Or.inr (.leaving d n hy hx hout hd (hout'.snoc hm))
    | idle _ hx | calling _ hx | crossing _ hx | answering _ hx | answered _ hx
    | bothLeaving _ _ _ _ _ hx | answeringLeave _ _ _ _ hx | bothLeft _ _ _ hx | left _ _ _ hx
    | acceptedLeaving _ _ _ hx | recalling _ _ _ hx =>
        have hne := hup.symm.trans hx
        exact absurd hne (by decide)

theorem Converging.setup (h : Converging ⟨x, y⟩) (hdown : x.link = .down) :
    Converging ⟨x.command .opening .setup, y⟩ := by
  rcases h with h | h
  · cases h with
    | idle hx hy hout hout' =>
        refine Or.inl (.calling rfl hy ?_ hout')
        exact congrArg (· ++ [Msg.setup (x.commands + 1)]) hout
    | calling hx | crossing hx | answering hx | answered hx | accepted _ hx | session hx | leaving _ _ hx
    | bothLeaving _ _ _ _ hx | answeringLeave _ _ _ hx | bothLeft _ _ hx | left _ _ hx
    | acceptedLeaving _ _ hx | recalling _ _ hx =>
        have hne := hdown.symm.trans hx
        exact absurd hne (by decide)
  · cases h with
    | idle hy hx hout hout' =>
        refine Or.inl (.calling rfl hy ?_ hout)
        exact congrArg (· ++ [Msg.setup (x.commands + 1)]) hout'
    | calling hy hx hout hout' =>
        refine Or.inr (.crossing hy rfl hout ?_)
        exact congrArg (· ++ [Msg.setup (x.commands + 1)]) hout'
    | left d n hy hx hout hout' hd =>
        refine Or.inl (.recalling d n rfl hy ?_ hout hd)
        refine (congrArg (· ++ [Msg.setup (x.commands + 1)]) hout').trans ?_
        rw [List.append_assoc]
        rfl
    | crossing _ hx | answering _ hx | answered _ hx | accepted _ _ hx | session _ hx | leaving _ _ _ hx
    | bothLeaving _ _ _ _ _ hx | answeringLeave _ _ _ _ hx | bothLeft _ _ _ hx
    | acceptedLeaving _ _ _ hx | recalling _ _ _ hx =>
        have hne := hdown.symm.trans hx
        exact absurd hne (by decide)

theorem Converging.release (h : Converging ⟨x, y⟩) (hlink : x.link = .up ∨ x.link = .broken) :
    Converging ⟨x.command .closing .release, y⟩ := by
  rcases h with h | h
  · cases h with
    | session hx hy hout hout' => exact Or.inl (.leaving x.out (x.commands + 1) rfl hy rfl hout hout')
    | idle hx | calling hx | crossing hx | answering hx | answered hx | accepted _ hx | leaving _ _ hx
    | bothLeaving _ _ _ _ hx | answeringLeave _ _ _ hx | bothLeft _ _ hx | left _ _ hx
    | acceptedLeaving _ _ hx | recalling _ _ hx =>
        have hx : x.link = _ := hx
        rw [hx] at hlink
        exact absurd hlink (by decide)
  · cases h with
    | accepted d hy hx hout hout' hd =>
        refine Or.inr (.acceptedLeaving d (x.commands + 1) hy rfl hout ?_ hd)
        exact congrArg (· ++ [Msg.release (x.commands + 1)]) hout'
    | session hy hx hout hout' =>
        exact Or.inl (.leaving x.out (x.commands + 1) rfl hy rfl hout' hout)
    | leaving d n hy hx hout hd hout' =>
        exact Or.inr (.bothLeaving d x.out n (x.commands + 1) hy rfl hout rfl hd hout')
    | idle _ hx | calling _ hx | crossing _ hx | answering _ hx | answered _ hx
    | bothLeaving _ _ _ _ _ hx | answeringLeave _ _ _ _ hx | bothLeft _ _ _ hx | left _ _ _ hx
    | acceptedLeaving _ _ _ hx | recalling _ _ _ hx =>
        have hx : x.link = _ := hx
        rw [hx] at hlink
        exact absurd hlink (by decide)

/-- A lost payload is one of the session's part of a channel. -/
theorem exists_exchange_of_lost {left right : List (Msg α)} {m : Msg α} (c d c' : List (Msg α))
    (h : left ++ m :: right = c ++ (d ++ c')) (hm : m.data?.isSome) (hc : ∀ a ∈ c, a.data? = none)
    (hc' : ∀ a ∈ c', a.data? = none) (hd : Exchange d) :
    ∃ d', Exchange d' ∧ left ++ right = c ++ (d' ++ c') ∧ d ≠ [] := by
  have hnot {l : List (Msg α)} (hl : ∀ a ∈ l, a.data? = none) : m ∉ l := by
    intro hmem
    rw [hl m hmem] at hm
    exact absurd hm (by simp)
  rcases List.append_eq_append_iff.mp h.symm with ⟨a, rfl, ha⟩ | ⟨a, rfl, ha⟩
  · rcases List.append_eq_append_iff.mp ha with ⟨b, rfl, hb⟩ | ⟨b, rfl, hb⟩
    · exact absurd (hb ▸ List.mem_append_right b List.mem_cons_self) (hnot hc')
    · cases b with
      | nil =>
          rw [List.nil_append] at hb
          exact absurd (hb ▸ List.mem_cons_self) (hnot hc')
      | cons e b =>
          obtain ⟨rfl, rfl⟩ := List.cons.inj hb
          refine ⟨a ++ b, fun z hz => ?_, by simp, by simp⟩
          rcases List.mem_append.mp hz with hz | hz
          · exact hd z (List.mem_append_left _ hz)
          · exact hd z (List.mem_append_right _ (List.mem_cons_of_mem m hz))
  · cases a with
    | nil =>
        cases d with
        | nil =>
            rw [List.nil_append, List.nil_append] at ha
            exact absurd (ha ▸ List.mem_cons_self) (hnot hc')
        | cons e d =>
            obtain ⟨rfl, rfl⟩ := List.cons.inj ha
            exact ⟨d, hd.tail, by simp, by simp⟩
    | cons e a =>
        obtain ⟨rfl, -⟩ := List.cons.inj ha
        exact absurd (List.mem_append_right left List.mem_cons_self) (hnot hc)

/-- Without a session's part nothing can be lost. -/
theorem not_lost {left right c : List (Msg α)} {m : Msg α} (h : left ++ m :: right = c)
    (hm : m.data?.isSome) (hc : ∀ a ∈ c, a.data? = none) : False := by
  have hmem : m ∈ c := by
    rw [← h]
    exact List.mem_append_right left List.mem_cons_self
  rw [hc m hmem] at hm
  exact absurd hm (by simp)

theorem Converging.lose (h : Converging ⟨x, y⟩) {left right : List (Msg α)} {m : Msg α}
    (hlost : left ++ m :: right = x.out) (hm : m.data?.isSome) :
    Converging ⟨{ x with out := left ++ right }, y⟩ := by
  rcases h with h | h
  · cases h with
    | idle hx hy hout hout' => exact (not_lost (hlost.trans hout) hm (by simp)).elim
    | calling hx hy hout hout' => exact (not_lost (hlost.trans hout) hm (by simp [Msg.data?])).elim
    | crossing hx hy hout hout' => exact (not_lost (hlost.trans hout) hm (by simp [Msg.data?])).elim
    | answering hx hy hout hout' => exact (not_lost (hlost.trans hout) hm (by simp [Msg.data?])).elim
    | answered hx hy hout hout' => exact (not_lost (hlost.trans hout) hm (by simp [Msg.data?])).elim
    | accepted d hx hy hout hout' hd => exact (not_lost (hlost.trans hout) hm (by simp)).elim
    | session hx hy hout hout' =>
        refine Or.inl (.session hx hy (fun a ha => hout a ?_) hout')
        change a ∈ x.out
        rw [← hlost]
        rcases List.mem_append.mp ha with ha | ha
        · exact List.mem_append_left _ ha
        · exact List.mem_append_right _ (List.mem_cons_of_mem m ha)
    | leaving d n hx hy hout hd hout' =>
        obtain ⟨d', hd', heq, -⟩ := exists_exchange_of_lost [] d [.release n] (hlost.trans hout) hm
          (by simp) (by simp [Msg.data?]) hd
        exact Or.inl (.leaving d' n hx hy heq hd' hout')
    | bothLeaving d e n n' hx hy hout hout' hd he =>
        obtain ⟨d', hd', heq, -⟩ := exists_exchange_of_lost [] d [.release n] (hlost.trans hout) hm
          (by simp) (by simp [Msg.data?]) hd
        exact Or.inl (.bothLeaving d' e n n' hx hy heq hout' hd' he)
    | answeringLeave d n n' hx hy hout hout' hd =>
        obtain ⟨d', hd', heq, -⟩ := exists_exchange_of_lost [] d [.release n, .accept n']
          (hlost.trans hout) hm (by simp) (by simp [Msg.data?]) hd
        exact Or.inl (.answeringLeave d' n n' hx hy heq hout' hd')
    | bothLeft n n' hx hy hout hout' => exact (not_lost (hlost.trans hout) hm (by simp [Msg.data?])).elim
    | left d n hx hy hout hout' hd => exact (not_lost (hlost.trans hout) hm (by simp)).elim
    | acceptedLeaving d n hx hy hout hout' hd => exact (not_lost (hlost.trans hout) hm (by simp)).elim
    | recalling d n hx hy hout hout' hd =>
        obtain ⟨d', hd', heq, -⟩ := exists_exchange_of_lost [] d [.accept n, .setup x.commands]
          (hlost.trans hout) hm (by simp) (by simp [Msg.data?]) hd
        exact Or.inl (.recalling d' n hx hy heq hout' hd')
  · cases h with
    | idle hy hx hout hout' => exact (not_lost (hlost.trans hout') hm (by simp)).elim
    | calling hy hx hout hout' => exact (not_lost (hlost.trans hout') hm (by simp)).elim
    | crossing hy hx hout hout' => exact (not_lost (hlost.trans hout') hm (by simp [Msg.data?])).elim
    | answering hy hx hout hout' => exact (not_lost (hlost.trans hout') hm (by simp)).elim
    | answered hy hx hout hout' => exact (not_lost (hlost.trans hout') hm (by simp [Msg.data?])).elim
    | accepted d hy hx hout hout' hd =>
        have hsplit : x.out = [.accept y.commands] ++ (d ++ []) := by
          rw [List.append_nil]
          exact hout'
        obtain ⟨d', hd', heq, -⟩ := exists_exchange_of_lost [.accept y.commands] d []
          (hlost.trans hsplit) hm (by simp [Msg.data?]) (by simp) hd
        rw [List.append_nil] at heq
        exact Or.inr (.accepted d' hy hx hout heq hd')
    | session hy hx hout hout' =>
        refine Or.inr (.session hy hx hout fun a ha => hout' a ?_)
        change a ∈ x.out
        rw [← hlost]
        rcases List.mem_append.mp ha with ha | ha
        · exact List.mem_append_left _ ha
        · exact List.mem_append_right _ (List.mem_cons_of_mem m ha)
    | leaving d n hy hx hout hd hout' =>
        refine Or.inr (.leaving d n hy hx hout hd fun a ha => hout' a ?_)
        change a ∈ x.out
        rw [← hlost]
        rcases List.mem_append.mp ha with ha | ha
        · exact List.mem_append_left _ ha
        · exact List.mem_append_right _ (List.mem_cons_of_mem m ha)
    | bothLeaving d e n n' hy hx hout hout' hd he =>
        obtain ⟨e', he', heq, -⟩ := exists_exchange_of_lost [] e [.release n'] (hlost.trans hout') hm
          (by simp) (by simp [Msg.data?]) he
        exact Or.inr (.bothLeaving d e' n n' hy hx hout heq hd he')
    | answeringLeave d n n' hy hx hout hout' hd => exact (not_lost (hlost.trans hout') hm (by simp)).elim
    | bothLeft n n' hy hx hout hout' => exact (not_lost (hlost.trans hout') hm (by simp [Msg.data?])).elim
    | left d n hy hx hout hout' hd =>
        obtain ⟨d', hd', heq, -⟩ := exists_exchange_of_lost [] d [.accept n] (hlost.trans hout') hm
          (by simp) (by simp [Msg.data?]) hd
        exact Or.inr (.left d' n hy hx hout heq hd')
    | acceptedLeaving d n hy hx hout hout' hd =>
        obtain ⟨d', hd', heq, -⟩ := exists_exchange_of_lost [.accept y.commands] d [.release n]
          (hlost.trans hout') hm (by simp [Msg.data?]) (by simp [Msg.data?]) hd
        exact Or.inr (.acceptedLeaving d' n hy hx hout heq hd')
    | recalling d n hy hx hout hout' hd => exact (not_lost (hlost.trans hout') hm (by simp)).elim

/-- The first message of a channel, of which the session's part comes first. -/
theorem head_cases {d c : List (Msg α)} {m : Msg α} {rest : List (Msg α)} (h : m :: rest = d ++ c)
    (hd : Exchange d) :
    (∃ d', d = m :: d' ∧ rest = d' ++ c ∧ Numbered m ∧ Exchange d') ∨ d = [] ∧ m :: rest = c := by
  cases d with
  | nil => exact Or.inr ⟨rfl, h⟩
  | cons e d =>
      obtain ⟨rfl, rfl⟩ := List.cons.inj h
      exact Or.inl ⟨d, rfl, rfl, hd m List.mem_cons_self, hd.tail⟩

theorem Converging.recv (hinv : Inv R ⟨x, y⟩) (h : Converging ⟨x, y⟩) {m : Msg α} {rest : List (Msg α)}
    (hhead : m :: rest = y.out) : Converging ⟨handle R x m, { y with out := rest }⟩ := by
  have hnear (hphase : Phase x { y with out := rest }) (hsame : Same x (handle R x m)) :
      Converging ⟨handle R x m, { y with out := rest }⟩ :=
    Or.inl (hphase.congr hsame ⟨rfl, rfl, rfl⟩)
  have hfar (hphase : Phase { y with out := rest } x) (hsame : Same x (handle R x m)) :
      Converging ⟨handle R x m, { y with out := rest }⟩ :=
    Or.inr (hphase.congr ⟨rfl, rfl, rfl⟩ hsame)
  rcases h with h | h
  · cases h with
    | idle hx hy hout hout' => exact absurd (hhead.trans hout') (by simp)
    | calling hx hy hout hout' => exact absurd (hhead.trans hout') (by simp)
    | crossing hx hy hout hout' =>
        obtain ⟨rfl, rfl⟩ := List.cons.inj (hhead.trans hout')
        simp only [handle, show x.link = .opening from hx]
        exact Or.inl (.answering hx hy (congrArg (· ++ [Msg.accept y.commands]) hout) rfl)
    | answering hx hy hout hout' => exact absurd (hhead.trans hout') (by simp)
    | answered hx hy hout hout' =>
        obtain ⟨rfl, rfl⟩ := List.cons.inj (hhead.trans hout')
        simp only [handle, show x.link = .opening from hx]
        exact Or.inr (.accepted [] hy rfl rfl hout exchange_nil)
    | accepted d hx hy hout hout' hd =>
        obtain ⟨rfl, rfl⟩ := List.cons.inj (hhead.trans hout')
        simp only [handle, show x.link = .opening from hx]
        refine Or.inl (.session rfl hy ?_ hd)
        change Exchange x.out
        rw [show x.out = [] from hout]
        exact fun _ ha => absurd ha (by simp)
    | session hx hy hout hout' =>
        have hm : Numbered m := hout' m (hhead ▸ List.mem_cons_self)
        have hsame := hinv.handle_numbered (Or.inl hx) hm hhead.symm
        have hrest : Exchange rest := fun a ha => hout' a (hhead ▸ List.mem_cons_of_mem m ha)
        exact hnear (.session hx hy hout hrest) hsame
    | leaving d n hx hy hout hd hout' =>
        have hm : Numbered m := hout' m (hhead ▸ List.mem_cons_self)
        have hsame := hinv.handle_numbered (Or.inr hx) hm hhead.symm
        have hrest : Exchange rest := fun a ha => hout' a (hhead ▸ List.mem_cons_of_mem m ha)
        exact hnear (.leaving d n hx hy hout hd hrest) hsame
    | bothLeaving d e n n' hx hy hout hout' hd he =>
        rcases head_cases (hhead.trans hout') he with ⟨e', -, rfl, hm, he'⟩ | ⟨rfl, hlast⟩
        · have hsame := hinv.handle_numbered (Or.inr hx) hm hhead.symm
          exact hnear (.bothLeaving d e' n n' hx hy hout rfl hd he') hsame
        · obtain ⟨rfl, rfl⟩ := List.cons.inj hlast
          simp only [handle, show x.link = .closing from hx]
          refine Or.inl (.answeringLeave d n n' hx hy ?_ rfl hd)
          refine (congrArg (· ++ [Msg.accept n']) hout).trans ?_
          rw [List.append_assoc]
          rfl
    | answeringLeave d n n' hx hy hout hout' hd => exact absurd (hhead.trans hout') (by simp)
    | bothLeft n n' hx hy hout hout' =>
        obtain ⟨rfl, rfl⟩ := List.cons.inj (hhead.trans hout')
        simp only [handle, show x.link = .closing from hx]
        exact Or.inr (.left [] n hy rfl rfl hout exchange_nil)
    | left d n hx hy hout hout' hd =>
        rcases head_cases (hhead.trans hout') hd with ⟨d', -, rfl, hm, hd'⟩ | ⟨rfl, hlast⟩
        · have hsame := hinv.handle_numbered (Or.inr hx) hm hhead.symm
          exact hnear (.left d' n hx hy hout rfl hd') hsame
        · obtain ⟨rfl, rfl⟩ := List.cons.inj hlast
          simp only [handle, show x.link = .closing from hx]
          exact Or.inl (.idle rfl hy hout rfl)
    | acceptedLeaving d n hx hy hout hout' hd =>
        obtain ⟨rfl, rfl⟩ := List.cons.inj (hhead.trans hout')
        simp only [handle, show x.link = .opening from hx]
        refine Or.inr (.leaving d n hy rfl rfl hd ?_)
        change Exchange x.out
        rw [show x.out = [] from hout]
        exact fun _ ha => absurd ha (by simp)
    | recalling d n hx hy hout hout' hd => exact absurd (hhead.trans hout') (by simp)
  · cases h with
    | idle hy hx hout hout' => exact absurd (hhead.trans hout) (by simp)
    | calling hy hx hout hout' =>
        obtain ⟨rfl, rfl⟩ := List.cons.inj (hhead.trans hout)
        simp only [handle, show x.link = .down from hx]
        exact Or.inr (.accepted [] hy rfl rfl (congrArg (· ++ [Msg.accept y.commands]) hout') exchange_nil)
    | crossing hy hx hout hout' =>
        obtain ⟨rfl, rfl⟩ := List.cons.inj (hhead.trans hout)
        simp only [handle, show x.link = .opening from hx]
        exact Or.inl (.answering hx hy (congrArg (· ++ [Msg.accept y.commands]) hout') rfl)
    | answering hy hx hout hout' =>
        obtain ⟨rfl, rfl⟩ := List.cons.inj (hhead.trans hout)
        simp only [handle, show x.link = .opening from hx]
        exact Or.inr (.answered hy hx rfl (congrArg (· ++ [Msg.accept y.commands]) hout'))
    | answered hy hx hout hout' =>
        obtain ⟨rfl, rfl⟩ := List.cons.inj (hhead.trans hout)
        simp only [handle, show x.link = .opening from hx]
        exact Or.inr (.accepted [] hy rfl rfl hout' exchange_nil)
    | accepted d hy hx hout hout' hd => exact absurd (hhead.trans hout) (by simp)
    | session hy hx hout hout' =>
        have hm : Numbered m := hout m (hhead ▸ List.mem_cons_self)
        have hsame := hinv.handle_numbered (Or.inl hx) hm hhead.symm
        have hrest : Exchange rest := fun a ha => hout a (hhead ▸ List.mem_cons_of_mem m ha)
        exact hnear (.session hx hy hout' hrest) hsame
    | leaving d n hy hx hout hd hout' =>
        rcases head_cases (hhead.trans hout) hd with ⟨d', -, rfl, hm, hd'⟩ | ⟨rfl, hlast⟩
        · have hsame := hinv.handle_numbered (Or.inl hx) hm hhead.symm
          exact hfar (.leaving d' n hy hx rfl hd' hout') hsame
        · obtain ⟨rfl, rfl⟩ := List.cons.inj hlast
          simp only [handle, show x.link = .up from hx]
          exact Or.inr (.left x.out n hy rfl rfl rfl hout')
    | bothLeaving d e n n' hy hx hout hout' hd he =>
        rcases head_cases (hhead.trans hout) hd with ⟨d', -, rfl, hm, hd'⟩ | ⟨rfl, hlast⟩
        · have hsame := hinv.handle_numbered (Or.inr hx) hm hhead.symm
          exact hfar (.bothLeaving d' e n n' hy hx rfl hout' hd' he) hsame
        · obtain ⟨rfl, rfl⟩ := List.cons.inj hlast
          simp only [handle, show x.link = .closing from hx]
          refine Or.inl (.answeringLeave e n' n hx hy ?_ rfl he)
          refine (congrArg (· ++ [Msg.accept n]) hout').trans ?_
          rw [List.append_assoc]
          rfl
    | answeringLeave d n n' hy hx hout hout' hd =>
        rcases head_cases (hhead.trans hout) hd with ⟨d', -, rfl, hm, hd'⟩ | ⟨rfl, hlast⟩
        · have hsame := hinv.handle_numbered (Or.inr hx) hm hhead.symm
          exact hfar (.answeringLeave d' n n' hy hx rfl hout' hd') hsame
        · obtain ⟨rfl, rfl⟩ := List.cons.inj hlast
          simp only [handle, show x.link = .closing from hx]
          exact Or.inr (.bothLeft n' n hy hx rfl (congrArg (· ++ [Msg.accept n]) hout'))
    | bothLeft n n' hy hx hout hout' =>
        obtain ⟨rfl, rfl⟩ := List.cons.inj (hhead.trans hout)
        simp only [handle, show x.link = .closing from hx]
        exact Or.inr (.left [] n' hy rfl rfl hout' exchange_nil)
    | left d n hy hx hout hout' hd => exact absurd (hhead.trans hout) (by simp)
    | acceptedLeaving d n hy hx hout hout' hd => exact absurd (hhead.trans hout) (by simp)
    | recalling d n hy hx hout hout' hd =>
        rcases head_cases (hhead.trans hout) hd with ⟨d', -, rfl, hm, hd'⟩ | ⟨rfl, hlast⟩
        · have hsame := hinv.handle_numbered (Or.inr hx) hm hhead.symm
          exact hfar (.recalling d' n hy hx rfl hout' hd') hsame
        · obtain ⟨rfl, rfl⟩ := List.cons.inj hlast
          simp only [handle, show x.link = .closing from hx]
          exact Or.inr (.calling hy rfl rfl hout')

/-! ### What the phases say -/

/-- A peer that is opening hears a set-up or the answer to its last command, never a payload. -/
theorem Converging.opening_hears (h : Converging ⟨x, y⟩) (hlink : x.link = .opening) {m : Msg α}
    {rest : List (Msg α)} (hhead : m :: rest = y.out) :
    (∃ n, m = .setup n) ∨ m = .accept x.commands := by
  rcases h with h | h
  · cases h with
    | crossing hx hy hout hout' => exact Or.inl ⟨_, (List.cons.inj (hhead.trans hout')).1⟩
    | answered hx hy hout hout' => exact Or.inr (List.cons.inj (hhead.trans hout')).1
    | accepted d hx hy hout hout' => exact Or.inr (List.cons.inj (hhead.trans hout')).1
    | acceptedLeaving d n hx hy hout hout' => exact Or.inr (List.cons.inj (hhead.trans hout')).1
    | calling _ _ _ hout' | answering _ _ _ hout' | recalling _ _ _ _ _ hout' =>
        exact absurd (hhead.trans hout') (by simp)
    | idle hx | session hx | leaving _ _ hx | bothLeaving _ _ _ _ hx | answeringLeave _ _ _ hx
    | bothLeft _ _ hx | left _ _ hx =>
        have hne := hlink.symm.trans hx
        exact absurd hne (by decide)
  · cases h with
    | crossing hy hx hout hout' => exact Or.inl ⟨_, (List.cons.inj (hhead.trans hout)).1⟩
    | answering hy hx hout hout' => exact Or.inl ⟨_, (List.cons.inj (hhead.trans hout)).1⟩
    | answered hy hx hout hout' => exact Or.inr (List.cons.inj (hhead.trans hout)).1
    | idle _ hx | calling _ hx | accepted _ _ hx | session _ hx | leaving _ _ _ hx
    | bothLeaving _ _ _ _ _ hx | answeringLeave _ _ _ _ hx | bothLeft _ _ _ hx | left _ _ _ hx
    | acceptedLeaving _ _ _ hx | recalling _ _ _ hx =>
        have hne := hlink.symm.trans hx
        exact absurd hne (by decide)

/-- With nothing on the way both links are up or both are down. -/
theorem Converging.quiescent (h : Converging ⟨x, y⟩) (hx : x.out = []) (hy : y.out = []) :
    x.link = .up ∧ y.link = .up ∨ x.link = .down ∧ y.link = .down := by
  have hphase {x y : Peer α} (h : Phase x y) (hx : x.out = []) (hy : y.out = []) :
      x.link = .up ∧ y.link = .up ∨ x.link = .down ∧ y.link = .down := by
    cases h with
    | idle h₁ h₂ => exact Or.inr ⟨h₁, h₂⟩
    | session h₁ h₂ => exact Or.inl ⟨h₁, h₂⟩
    | calling _ _ hout | crossing _ _ hout | answering _ _ hout | answered _ _ hout | leaving _ _ _ _ hout
    | bothLeaving _ _ _ _ _ _ hout | answeringLeave _ _ _ _ _ hout | bothLeft _ _ _ _ hout
    | recalling _ _ _ _ hout => exact absurd (hx.symm.trans hout) (by simp)
    | accepted _ _ _ _ hout | left _ _ _ _ _ hout | acceptedLeaving _ _ _ _ _ hout =>
        exact absurd (hy.symm.trans hout) (by simp)
  rcases h with h | h
  · exact hphase h hx hy
  · rcases hphase h hy hx with hup | hdown
    · exact Or.inl hup.symm
    · exact Or.inr hdown.symm

theorem Exchange.not_reject {l : List (Msg α)} (h : Exchange l) : .reject ∉ l := by
  intro hm
  have hnumbered := h _ hm
  cases hnumbered

/-- Nothing is rejected. -/
theorem Converging.not_reject (h : Converging ⟨x, y⟩) : .reject ∉ x.out ∧ .reject ∉ y.out := by
  have hphase {x y : Peer α} (h : Phase x y) : .reject ∉ x.out ∧ .reject ∉ y.out := by
    cases h with
    | idle _ _ hout hout' | calling _ _ hout hout' | crossing _ _ hout hout' | answering _ _ hout hout'
    | answered _ _ hout hout' | bothLeft _ _ _ _ hout hout' =>
        rw [hout, hout']
        simp
    | session _ _ hout hout' => exact ⟨hout.not_reject, hout'.not_reject⟩
    | leaving _ _ _ _ hout hd hout' =>
        rw [hout]
        exact ⟨by simp [hd.not_reject], hout'.not_reject⟩
    | accepted _ _ _ hout hout' hd | answeringLeave _ _ _ _ _ hout hout' hd | left _ _ _ _ hout hout' hd
    | acceptedLeaving _ _ _ _ hout hout' hd | recalling _ _ _ _ hout hout' hd =>
        rw [hout, hout']
        simp [hd.not_reject]
    | bothLeaving _ _ _ _ _ _ hout hout' hd hd' =>
        rw [hout, hout']
        simp [hd.not_reject, hd'.not_reject]
  rcases h with h | h
  · exact hphase h
  · exact (hphase h).symm

/-- No message of a session asks for an answer. -/
theorem Converging.not_polled (h : Converging ⟨x, y⟩) (hup : x.link = .up) (r : Nat)
    (rest : List (Msg α)) : y.out ≠ .ack r true :: rest := by
  intro hout
  have hnot : ¬Numbered (.ack r true : Msg α) := by
    intro hm
    cases hm
  rcases h with h | h
  · cases h with
    | session hx hy hspoken hspoken' => exact hnot (hspoken' _ (hout ▸ List.mem_cons_self))
    | idle hx | calling hx | crossing hx | answering hx | answered hx | accepted _ hx | leaving _ _ hx
    | bothLeaving _ _ _ _ hx | answeringLeave _ _ _ hx | bothLeft _ _ hx | left _ _ hx
    | acceptedLeaving _ _ hx | recalling _ _ hx =>
        have hne := hup.symm.trans hx
        exact absurd hne (by decide)
  · cases h with
    | accepted d hy hx hspoken => exact absurd (hout.symm.trans hspoken) (by simp)
    | session hy hx hspoken => exact hnot (hspoken _ (hout ▸ List.mem_cons_self))
    | leaving d n hy hx hspoken hd =>
        rcases head_cases (hout.symm.trans hspoken) hd with ⟨_, _, _, hm, _⟩ | ⟨_, hlast⟩
        · exact hnot hm
        · exact absurd (List.cons.inj hlast).1 (by simp)
    | idle _ hx | calling _ hx | crossing _ hx | answering _ hx | answered _ hx
    | bothLeaving _ _ _ _ _ hx | answeringLeave _ _ _ _ hx | bothLeft _ _ _ hx | left _ _ _ hx
    | acceptedLeaving _ _ _ hx | recalling _ _ _ hx =>
        have hne := hup.symm.trans hx
        exact absurd hne (by decide)

theorem Converging.talk {n n' : Net α} (hinv : Inv R n) (h : Converging n) (htalk : Talk R n n')
    (htimed : ¬R.timed) (hlossy : ¬R.lossy) : Converging n' := by
  cases htalk with
  | @push x y payload hup hroom =>
      have htaken : Converging ⟨x.take payload, y⟩ :=
        h.imp (fun hp => hp.congr ⟨rfl, rfl, rfl⟩ ⟨rfl, rfl, rfl⟩)
          fun hp => hp.congr ⟨rfl, rfl, rfl⟩ ⟨rfl, rfl, rfl⟩
      exact htaken.say hup (.data _ payload _)
  | resend k payload hup hk hwindow hexact => exact h.say hup (.data k payload _)
  | @ack x y poll hup hpoll =>
      cases poll with
      | false => exact h.say hup (.ack _)
      | true =>
          obtain ⟨r, rest, hout⟩ := (hpoll rfl).resolve_left htimed
          exact absurd hout (h.not_polled hup r rest)
  | lose left right m hout hlost => exact h.lose hout.symm (hlost.resolve_left hlossy)
  | recv m rest hout => exact h.recv hinv hout.symm

/-- Without timers and with no loss but of payloads every step leads to a phase. -/
theorem Converging.act {n n' : Net α} (hinv : Inv R n) (h : Converging n) (hact : Act R n n')
    (htimed : ¬R.timed) (hlossy : ¬R.lossy) : Converging n' := by
  cases hact with
  | talk htalk => exact h.talk hinv htalk htimed hlossy
  | setup hlink => exact h.setup (hlink.resolve_right fun hl => htimed hl.1)
  | release hlink =>
      refine h.release ?_
      rcases hlink with hup | hbroken | ⟨ht, -⟩
      · exact Or.inl hup
      · exact Or.inr hbroken
      · exact absurd ht htimed
  | giveUp ht => exact absurd ht htimed
  | complain ht => exact absurd ht htimed

theorem Converging.step {n n' : Net α} (hinv : Inv R n) (h : Converging n) (hstep : Step R n n')
    (htimed : ¬R.timed) (hlossy : ¬R.lossy) : Converging n' := by
  rcases hstep with hact | hact
  · exact h.act hinv hact htimed hlossy
  · exact (h.swap.act hinv.swap hact htimed hlossy).swap

/-- So do any number of steps. -/
theorem Converging.steps {n n' : Net α} (hinv : Inv R n) (h : Converging n)
    (hsteps : Relation.ReflTransGen (Step R) n n') (htimed : ¬R.timed) (hlossy : ¬R.lossy) : Converging n' := by
  induction hsteps with
  | refl => exact h
  | tail hbefore hstep ih => exact ih.step (hinv.steps hbefore) hstep htimed hlossy

end Convergence

end DataLink
