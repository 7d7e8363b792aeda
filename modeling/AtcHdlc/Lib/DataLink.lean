import Mathlib.Data.List.Pairwise
import Mathlib.Data.List.Sublists
import AtcHdlc.Lib.Serial

/-! Two peers that open, use and close sessions over two FIFO channels which may lose messages. A
session is a go-back-N exchange: payloads are numbered, the receiver takes the next number only and
acknowledges by the number that it expects. Numbers are unbounded; a receiver looks at their residues
only. Commands and answers carry ghost numbers, by which an answer is told from a late one. -/

namespace DataLink

/-- A peer's part in the connection. -/
inductive Link where
  | down
  | opening
  | up
  | broken
  | closing
  deriving DecidableEq

/-- What is on a channel: a payload with its number and the acknowledgement `r`, an acknowledgement,
the `n`th command of its sender, an answer to the `n`th command of its receiver, a rejection. -/
inductive Msg (α : Type) where
  | data (k : Nat) (payload : α) (r : Nat)
  | ack (r : Nat) (poll : Bool)
  | setup (n : Nat)
  | release (n : Nat)
  | accept (n : Nat)
  | refuse (n : Nat)
  | reject

namespace Msg

variable {α : Type}

/-- The acknowledgement that a message carries. -/
def nr? : Msg α → Option Nat
  | data _ _ r | ack r _ => some r
  | _ => none

/-- The payload that a message carries, with its number. -/
def data? : Msg α → Option (Nat × α)
  | data k payload _ => some (k, payload)
  | _ => none

def command? : Msg α → Option Nat
  | setup n | release n => some n
  | _ => none

def answer? : Msg α → Option Nat
  | accept n | refuse n => some n
  | _ => none

end Msg

/-- A peer: its link, its window, the payloads it took in this session and how many of them are
acknowledged, what it received in this session, the number of its commands and that of the last
command it heard, how often it began anew, and the channel it sends to. -/
structure Peer (α : Type) where
  link : Link
  window : Nat
  sent : List α
  acked : Nat
  got : List α
  commands : Nat
  heard : Nat
  resets : Nat
  out : List (Msg α)

namespace Peer

variable {α : Type}

def say (x : Peer α) (m : Msg α) : Peer α := { x with out := x.out ++ [m] }

def goto (x : Peer α) (link : Link) : Peer α := { x with link := link }

/-- The beginning of a session. -/
def fresh (x : Peer α) : Peer α := { x with sent := [], acked := 0, got := [], resets := x.resets + 1 }

def hear (x : Peer α) (n : Nat) : Peer α := { x with heard := n }

/-- A new command. -/
def command (x : Peer α) (link : Link) (m : Nat → Msg α) : Peer α :=
  { x with link := link, commands := x.commands + 1, out := x.out ++ [m (x.commands + 1)] }

def take (x : Peer α) (payload : α) : Peer α := { x with sent := x.sent ++ [payload] }

def settle (x : Peer α) (acked : Nat) : Peer α := { x with acked := acked }

def receive (x : Peer α) (payload : α) : Peer α := { x with got := x.got ++ [payload] }

end Peer

/-- What a connection is run under: the modulus of the numbers, whether a repetition repeats the
payload, whether channels lose messages other than payloads, whether there are timers. -/
structure Rules where
  modulus : Nat
  exact : Prop
  lossy : Prop
  timed : Prop

section Handle

variable {α : Type} (R : Rules)

/-- What a peer with an open session does about an acknowledgement. -/
def handleAck (x : Peer α) (r : Nat) (next : Peer α → Peer α) : Peer α :=
  let acked := Serial.advance R.modulus x.acked (r % R.modulus)
  if acked ≤ x.sent.length then next (x.settle acked) else (x.goto .broken).say .reject

/-- What a peer does about a message. -/
def handle (x : Peer α) : Msg α → Peer α
  | .data k payload r =>
      match x.link with
      | .up => handleAck R x r fun x =>
          if k % R.modulus = x.got.length % R.modulus then x.receive payload else x
      | _ => x
  | .ack r poll =>
      match x.link with
      | .up => handleAck R x r id
      | .closing => if poll then x.say (.refuse x.heard) else x
      | _ => x
  | .setup n =>
      match x.link with
      | .down | .broken | .up => (((x.hear n).fresh).goto .up).say (.accept n)
      | .opening => (x.hear n).say (.accept n)
      | .closing => (x.hear n).say (.refuse n)
  | .release n =>
      match x.link with
      | .down | .closing => (x.hear n).say (.accept n)
      | .opening => (x.hear n).say (.refuse n)
      | .up => (((x.hear n).goto .down).fresh).say (.accept n)
      | .broken => x.hear n
  | .accept _ =>
      match x.link with
      | .opening => x.fresh.goto .up
      | .closing => x.goto .down
      | .up => x.say .reject
      | _ => x
  | .refuse _ =>
      match x.link with
      | .opening | .closing => x.goto .down
      | .up => (x.goto .down).fresh
      | _ => x
  | .reject =>
      match x.link with
      | .up => (x.goto .broken).fresh
      | _ => x

end Handle

/-- Two peers, seen from the near one. -/
@[ext]
structure Net (α : Type) where
  near : Peer α
  far : Peer α

namespace Net

variable {α : Type}

def swap (n : Net α) : Net α := ⟨n.far, n.near⟩

@[simp] theorem swap_swap (n : Net α) : n.swap.swap = n := rfl

end Net

section Act

variable {α : Type} (R : Rules)

/-- What the near peer does in a session, what is lost on its way, and what it hears. An answer that is
accepted while opening answers the last command, and a refusal is heeded only when none of the peer's
set-up commands is still on the way. -/
inductive Talk : Net α → Net α → Prop where
  | push {x y : Peer α} (payload : α) (hup : x.link = .up)
      (hroom : x.sent.length < x.acked + x.window) :
      Talk ⟨x, y⟩ ⟨(x.take payload).say (.data x.sent.length payload x.got.length), y⟩
  | resend {x y : Peer α} (k : Nat) (payload : α) (hup : x.link = .up) (hk : k < x.sent.length)
      (hwindow : x.sent.length ≤ k + x.window) (hexact : R.exact → x.acked ≤ k → x.sent[k]? = some payload) :
      Talk ⟨x, y⟩ ⟨x.say (.data k payload x.got.length), y⟩
  | ack {x y : Peer α} (poll : Bool) (hup : x.link = .up)
      (hpoll : poll = true → R.timed ∨ ∃ r rest, y.out = .ack r true :: rest) :
      Talk ⟨x, y⟩ ⟨x.say (.ack x.got.length poll), y⟩
  | lose {x y : Peer α} (left right : List (Msg α)) (m : Msg α) (hout : x.out = left ++ m :: right)
      (hlossy : R.lossy ∨ m.data?.isSome) : Talk ⟨x, y⟩ ⟨{ x with out := left ++ right }, y⟩
  | recv {x y : Peer α} (m : Msg α) (rest : List (Msg α)) (hout : y.out = m :: rest)
      (haccept : x.link = .opening → ∀ n, m = .accept n → n = x.commands)
      (hrefuse : x.link = .opening → ∀ n, m = .refuse n → ∀ n', .setup n' ∉ x.out) :
      Talk ⟨x, y⟩ ⟨handle R x m, { y with out := rest }⟩

/-- A step of one of the peers that only its session is concerned with. -/
def Chat (n n' : Net α) : Prop := Talk R n n' ∨ Talk R n.swap n'.swap

/-- The steps of the near peer. It gives opening up only when none of its set-up commands is still on
the way. -/
inductive Act : Net α → Net α → Prop where
  | talk {n n' : Net α} (h : Talk R n n') : Act n n'
  | setup {x y : Peer α} (hlink : x.link = .down ∨ R.timed ∧ x.link = .opening) :
      Act ⟨x, y⟩ ⟨x.command .opening .setup, y⟩
  | release {x y : Peer α}
      (hlink : x.link = .up ∨ x.link = .broken ∨ R.timed ∧ x.link = .closing) :
      Act ⟨x, y⟩ ⟨x.command .closing .release, y⟩
  | giveUp {x y : Peer α} (htimed : R.timed) (hclear : x.link = .opening → ∀ n, .setup n ∉ x.out) :
      Act ⟨x, y⟩ ⟨(x.goto .down).fresh, y⟩
  | complain {x y : Peer α} (htimed : R.timed) (hlink : x.link = .broken) :
      Act ⟨x, y⟩ ⟨x.say .reject, y⟩

/-- A step of one of the peers. -/
def Step (n n' : Net α) : Prop := Act R n n' ∨ Act R n.swap n'.swap

end Act

end DataLink
