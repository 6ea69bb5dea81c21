import ZenthDht.Model.Dto
import Mathlib.Logic.Function.Basic

/-!
# WebSocket connections

`connection_manager.rs` and `file_relay.rs`: the in-memory state behind the WebSocket
handler.  Both are guarded by a lock, so each of their operations is atomic.

A `tokio::sync::broadcast` channel is the list of everything sent on it.  The map holds
the only sender of a channel, so a channel is closed from the moment its map entry is
removed; a receiver then reads what is left and gets `Closed`.
-/

namespace ZenthDht

/-- `BROADCAST_CAPACITY`. -/
def broadcastCapacity : Nat := 1024

structure BroadcastMessage where
  recipientHash : Bytes
  payload : WsNotification
deriving DecidableEq

structure Channel where
  log : List BroadcastMessage := []
  receivers : Nat := 1
  isOpen : Bool := true
deriving DecidableEq

/-- A receiver and the number of the next message it reads. -/
structure Receiver where
  channel : Nat
  next : Nat
deriving DecidableEq

inductive RecvResult
  | ok (msg : BroadcastMessage)
  | lagged (missed : Nat)
  | closed
deriving DecidableEq

structure ConnectionManager where
  connections : Bytes → Option Nat := fun _ ↦ none
  channels : List Channel := []

namespace ConnectionManager

/-- Subscribe to the user's channel, creating it if there is none. -/
def register (cm : ConnectionManager) (u : Bytes) : Receiver × ConnectionManager :=
  match cm.connections u with
  | some ch =>
    (⟨ch, (cm.channels[ch]?.map fun x ↦ x.log.length).getD 0⟩,
      { cm with channels := cm.channels.modify ch fun x ↦ { x with receivers := x.receivers + 1 } })
  | none =>
    (⟨cm.channels.length, 0⟩,
      ⟨Function.update cm.connections u (some cm.channels.length), cm.channels ++ [{}]⟩)

/-- Remove the user's entry; dropping the sender closes the channel. -/
def unregister (cm : ConnectionManager) (u : Bytes) : ConnectionManager :=
  match cm.connections u with
  | some ch =>
    ⟨Function.update cm.connections u none,
      cm.channels.modify ch fun x ↦ { x with isOpen := false }⟩
  | none => cm

/-- `Sender::send` refuses when the channel has no receiver. -/
def sendToUser (cm : ConnectionManager) (u : Bytes) (n : WsNotification) :
    Bool × ConnectionManager :=
  match cm.connections u with
  | some ch =>
    if (cm.channels[ch]?.map Channel.receivers).getD 0 = 0 then (false, cm)
    else (true, { cm with
      channels := cm.channels.modify ch fun x ↦ { x with log := x.log ++ [⟨u, n⟩] } })
  | none => (false, cm)

def isConnected (cm : ConnectionManager) (u : Bytes) : Bool := (cm.connections u).isSome

/-- `Receiver::recv` with the number of the message it reads next, or `none` while it has to
wait. -/
def recv (cm : ConnectionManager) (rx : Receiver) : Option (RecvResult × Nat) :=
  match cm.channels[rx.channel]? with
  | none => none
  | some x =>
    if rx.next + broadcastCapacity < x.log.length then
      some (.lagged (x.log.length - broadcastCapacity - rx.next),
        x.log.length - broadcastCapacity)
    else
      match x.log[rx.next]? with
      | some msg => some (.ok msg, rx.next + 1)
      | none => if x.isOpen then none else some (.closed, rx.next)

/-- Dropping a receiver. -/
def dropReceiver (cm : ConnectionManager) (rx : Receiver) : ConnectionManager :=
  { cm with
    channels := cm.channels.modify rx.channel fun x ↦ { x with receivers := x.receivers - 1 } }

end ConnectionManager

/-! ## File transfers -/

structure TransferEntry where
  senderHash : Bytes
  insertedAt : Nat
deriving DecidableEq

/-- `TRANSFER_TTL`, in nanoseconds. -/
def transferTtl : Nat := 10 * 60 * 1000000000

/-- The registry of announced transfers, keyed by the 16-byte transfer id. -/
abbrev FileRelay : Type := Bytes → Option TransferEntry

namespace FileRelay

def register (r : FileRelay) (now : Nat) (tid sender : Bytes) : FileRelay :=
  Function.update r tid (some ⟨sender, now⟩)

def unregisterBySender (r : FileRelay) (sender : Bytes) : FileRelay :=
  fun tid ↦ (r tid).filter fun e ↦ e.senderHash ≠ sender

def getSender (r : FileRelay) (now : Nat) (tid : Bytes) : Option Bytes :=
  ((r tid).filter fun e ↦ now - e.insertedAt < transferTtl).map TransferEntry.senderHash

def cleanupExpired (r : FileRelay) (now : Nat) : FileRelay :=
  fun tid ↦ (r tid).filter fun e ↦ now - e.insertedAt < transferTtl

end FileRelay

/-- A transfer id is 16 bytes. -/
def parseTransferId (raw : Bytes) : Option Bytes := if raw.length = 16 then some raw else none

end ZenthDht
