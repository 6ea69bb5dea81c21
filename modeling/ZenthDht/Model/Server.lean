import ZenthDht.Conc.Machine
import ZenthDht.Model.ConnectionManager
import ZenthDht.Model.RateLimit
import ZenthDht.Model.Stmt

/-!
# Effects of the server

Everything a handler does that is not a computation on its own data is an operation:
SQL statements, readings of the clock, random bytes, the rate limiters, the WebSocket
state, the HTTP store of client updates.  `perform` gives their meaning over the state
shared by all handlers, the `World`.

Verifying a signature is an operation too.  It is a pure function, but which key and
which bytes a request was verified under is what most of the statements about the
server speak of, so the history records it.
-/

namespace ZenthDht

open Conc

/-! ## Signatures -/

/-- `dilithium2::public_key_bytes()`. -/
def publicKeyBytes : Nat := 1312

/-- `dilithium2::signature_bytes()`. -/
def signatureBytes : Nat := 2420

/-- `verify_dilithium_signature`, over the library's `verify_detached_signature`, which takes
the signature, the message and the public key. -/
def verifyDilithiumSignature (verifyDetached : Bytes → Bytes → Bytes → Bool)
    (publicKey message signature : Bytes) : Bool :=
  if publicKey.length ≠ publicKeyBytes then false
  else if signature.length ≠ signatureBytes then false
  else verifyDetached signature message publicKey

/-! ## Update store -/

structure PlatformEntry where
  file : String
  sha256 : String
  size : UInt64
  signature : String
deriving DecidableEq

structure Manifest where
  version : String
  notes : String
  platforms : List (String × PlatformEntry)
deriving DecidableEq

/-- The answer to `GET manifest.json`: whether the status is a success, the status, and the
body read as JSON. -/
structure ManifestAnswer where
  isSuccess : Bool
  status : String
  json : Except String Manifest

/-- The answer to a range request: the body, or the error of reading it. -/
abbrev RangeAnswer : Type := Except String Bytes

/-! ## WebSocket input -/

/-- What arrives on a socket. -/
inductive Frame
  | binary (data : Bytes)
  | ping
  | close
  | error
  | eof
  | other
deriving DecidableEq

/-- The two branches of the `select!` of the connection loop. -/
inductive WsInput
  | socket (f : Frame)
  | broadcast (r : RecvResult) (next : Nat)
deriving DecidableEq

/-! ## Operations -/

inductive Op
  | sql (s : Stmt)
  | clock
  | fillBytes
  | verify (key message signature : Bytes)
  | limiter (l : LimiterId) (key : Bytes)
  | cleanupLimiters
  | register (u : Bytes)
  | unregister (u : Bytes)
  | sendToUser (u : Bytes) (n : WsNotification)
  | spawnSend (u : Bytes) (n : WsNotification)
  | isConnected (u : Bytes)
  | receive
  | select (rx : Receiver)
  | socketSend (out : WsOutput)
  | dropReceiver (rx : Receiver)
  | relayRegister (tid sender : Bytes)
  | relayGetSender (tid : Bytes)
  | relayUnregisterBySender (sender : Bytes)
  | relayCleanup
  | getManifest
  | getRange (file : String) (first last : UInt64)
  | panic
deriving DecidableEq

/-- Thirty-two random bytes, `[u8; 32]`. -/
abbrev Bytes32 : Type := { b : Bytes // b.length = 32 }

/-- The type of an operation's result. -/
abbrev Res : Op → Type
  | .sql s => Except DieselError s.Out
  | .clock => Nat
  | .fillBytes => Bytes32
  | .verify _ _ _ | .limiter _ _ | .sendToUser _ _ | .isConnected _ | .socketSend _ => Bool
  | .register _ => Receiver
  | .receive => Option Frame
  | .select _ => WsInput
  | .relayGetSender _ => Option Bytes
  | .getManifest => Except String ManifestAnswer
  | .getRange _ _ _ => Except String RangeAnswer
  | .panic => Empty
  | .cleanupLimiters | .unregister _ | .spawnSend _ _ | .dropReceiver _ | .relayRegister _ _
  | .relayUnregisterBySender _ | .relayCleanup => Unit

/-- A handler: a program over the operations of the server. -/
abbrev Handler : Type → Type := Program Res

/-! ## The world -/

structure World where
  db : Db
  /-- The wall clock, in microseconds since the epoch. -/
  clock : Nat
  /-- The monotonic clock, in nanoseconds. -/
  instant : Nat
  limiters : Limiters
  connections : ConnectionManager
  transfers : FileRelay
  /-- Notifications handed to `tokio::spawn` and not sent yet. -/
  spawned : List (Bytes × WsNotification)

/-- The server as it starts: the migrations have run and nothing is in memory. -/
def World.initial (clock instant : Nat) : World :=
  ⟨.migrated, clock, instant, initLimiters, {}, fun _ ↦ none, []⟩

/-- What the world decides when an operation leaves it open. -/
inductive Oracle
  | none
  | fail (message : String)
  | bytes (b : Bytes32)
  | frame (f : Option Frame)
  | flag (b : Bool)
  | manifest (a : Except String ManifestAnswer)
  | range (a : Except String RangeAnswer)

/-- The oracle that makes a SQL statement fail. -/
def Oracle.fails : Oracle → Bool
  | .fail _ => true
  | _ => false

/-- What an operation returns and does.  Any SQL statement may fail for reasons of its own. -/
def perform (verifyDetached : Bytes → Bytes → Bytes → Bool) :
    (o : Op) → Oracle → World → Option (Res o × World)
  | .sql _, .fail m, w => some (.error (.other m), w)
  | .sql s, _, w =>
    let (r, db) := s.exec w.clock w.db
    some (r, { w with db })
  | .clock, _, w => some (w.clock, w)
  | .fillBytes, .bytes b, w => some (b, w)
  | .fillBytes, _, _ => none
  | .verify k m s, _, w => some (verifyDilithiumSignature verifyDetached k m s, w)
  | .limiter l key, _, w =>
    let (r, limiter) := (w.limiters l).isAllowed w.instant key
    some (r, { w with limiters := Function.update w.limiters l limiter })
  | .cleanupLimiters, _, w =>
    some ((), { w with limiters := fun l ↦ (w.limiters l).cleanup w.instant })
  | .register u, _, w =>
    let (rx, connections) := w.connections.register u
    some (rx, { w with connections })
  | .unregister u, _, w => some ((), { w with connections := w.connections.unregister u })
  | .sendToUser u n, _, w =>
    let (r, connections) := w.connections.sendToUser u n
    some (r, { w with connections })
  | .spawnSend u n, _, w => some ((), { w with spawned := w.spawned ++ [(u, n)] })
  | .isConnected u, _, w => some (w.connections.isConnected u, w)
  | .receive, .frame f, w => some (f, w)
  | .receive, _, _ => none
  | .select _, .frame (some f), w => some (.socket f, w)
  | .select rx, _, w => (w.connections.recv rx).map fun (r, next) ↦ (.broadcast r next, w)
  | .socketSend _, .flag b, w => some (b, w)
  | .socketSend _, _, _ => none
  | .dropReceiver rx, _, w => some ((), { w with connections := w.connections.dropReceiver rx })
  | .relayRegister tid u, _, w =>
    some ((), { w with transfers := w.transfers.register w.instant tid u })
  | .relayGetSender tid, _, w => some (w.transfers.getSender w.instant tid, w)
  | .relayUnregisterBySender u, _, w =>
    some ((), { w with transfers := w.transfers.unregisterBySender u })
  | .relayCleanup, _, w => some ((), { w with transfers := w.transfers.cleanupExpired w.instant })
  | .getManifest, .manifest a, w => some (a, w)
  | .getManifest, _, _ => none
  | .getRange _ _ _, .range a, w => some (a, w)
  | .getRange _ _ _, _, _ => none
  | .panic, _, _ => none

/-! ## The environment -/

/-- The largest reading of the wall clock: a little before the year 262 000, where `chrono`
refuses dates and sums of dates. -/
def clockLimit : Nat := 8200000000000000000

inductive Act
  | tick (clock instant : Nat)
  | setConfig (config : List (String × String))
  | reorder (db : Db)
  | runSpawned (i : Nat)

/-- Time passes (the wall clock may be set back, the monotonic clock may not), the operator
edits `app_config`, PostgreSQL reorders rows, a spawned notification is sent. -/
def act : Act → World → Option World
  | .tick c i, w => if c ≤ clockLimit ∧ w.instant ≤ i then some { w with clock := c, instant := i }
      else none
  | .setConfig config, w => some { w with db := { w.db with appConfig := config } }
  | .reorder db, w => if w.db.isPerm db then some { w with db } else none
  | .runSpawned i, w =>
    (w.spawned[i]?).map fun (u, n) ↦
      { w with spawned := w.spawned.eraseIdx i, connections := (w.connections.sendToUser u n).2 }

/-! ## Operations as programs -/

def sql (s : Stmt) : Handler (Except DieselError s.Out) := .call (Op.sql s)

def verify (key message signature : Bytes) : Handler Bool := .call (Op.verify key message signature)

/-- `[0u8; 32]` filled by `thread_rng().fill_bytes`. -/
def randomBytes : Handler Bytes32 := .call Op.fillBytes

/-- `chrono::Utc::now().naive_utc()`. -/
def utcNow : Handler NaiveDateTime := do
  let t ← (Program.call Op.clock : Handler Nat)
  pure t

/-- The seconds of a reading of the clock, as `current_timestamp` returns them. -/
def toSecs (clock : Nat) : UInt64 := UInt64.ofNat (clock / 1000000)

/-- The milliseconds of a reading of the clock, `as_millis() as i64`. -/
def toMillis (clock : Nat) : Int64 := Int64.ofNat (clock / 1000)

def currentTimestamp : Handler UInt64 := do
  let t ← (Program.call Op.clock : Handler Nat)
  pure (toSecs t)

/-- `SystemTime::now()` since the epoch, in milliseconds. -/
def currentMillis : Handler Int64 := do
  let t ← (Program.call Op.clock : Handler Nat)
  pure (toMillis t)

/-- `TIMESTAMP_TOLERANCE_SECS`. -/
def timestampToleranceSecs : Nat := 900

/-- `u64::abs_diff`. -/
def absDiff (a b : UInt64) : Nat := (a.toNat - b.toNat) + (b.toNat - a.toNat)

/-- The comparison of `is_timestamp_fresh` against a reading of the clock. -/
def fresh (clock : Nat) (ts : UInt64) : Bool :=
  decide (absDiff (toSecs clock) ts ≤ timestampToleranceSecs)

def isTimestampFresh (ts : UInt64) : Handler Bool := do
  let t ← (Program.call Op.clock : Handler Nat)
  pure (fresh t ts)

end ZenthDht
