import ZenthDht.Spec.Run

/-!
# Which signatures fit which methods

A signed byte string is a concatenation of fields that does not say which method it was made
for (the tag of an accepted friend request is the one exception).  What tells methods apart is
the length of the string, and nothing else: two methods whose strings can have a length in
common can be made to sign the same string under the same key, and two methods whose strings
cannot never do (`methods_separated_iff`).
-/

namespace ZenthDht

open Conc

/-! ## Methods and the lengths of what they sign -/

/-- The methods that verify a signature. -/
inductive Method
  | login
  | delete
  | contact
  | lookupUser
  | fetchFriendRequests
  | respondFriendRequest
  | sendMessage
  | fetchMessages
  | fetchFriendResponses
  | uploadPrekeys
  | fetchPrekeyBundle
  | checkPrekeyCount
  | replenishPrekeys
  | syncPushBlob
  | syncFetchBlob
  | syncDeleteBlob
  | relayPush
  | relayFetch
  | relayAck
  | fetchMyAccepted
  | ackMessage
  | publishRecoveryKey
  | recoveryClaim
deriving DecidableEq

def Method.all : List Method :=
  [.login, .delete, .contact, .lookupUser, .fetchFriendRequests, .respondFriendRequest,
   .sendMessage, .fetchMessages, .fetchFriendResponses, .uploadPrekeys, .fetchPrekeyBundle,
   .checkPrekeyCount, .replenishPrekeys, .syncPushBlob, .syncFetchBlob, .syncDeleteBlob,
   .relayPush, .relayFetch, .relayAck, .fetchMyAccepted, .ackMessage, .publishRecoveryKey,
   .recoveryClaim]

theorem Method.mem_all (m : Method) : m ∈ all := by cases m <;> decide

def Call.method : Call → Option Method
  | .login _ => some .login
  | .delete _ => some .delete
  | .contact _ => some .contact
  | .lookupUser _ => some .lookupUser
  | .fetchFriendRequests _ => some .fetchFriendRequests
  | .respondFriendRequest _ => some .respondFriendRequest
  | .sendMessage _ => some .sendMessage
  | .fetchMessages _ => some .fetchMessages
  | .fetchFriendResponses _ => some .fetchFriendResponses
  | .uploadPrekeys _ => some .uploadPrekeys
  | .fetchPrekeyBundle _ => some .fetchPrekeyBundle
  | .checkPrekeyCount _ => some .checkPrekeyCount
  | .replenishPrekeys _ => some .replenishPrekeys
  | .syncPushBlob _ => some .syncPushBlob
  | .syncFetchBlob _ => some .syncFetchBlob
  | .syncDeleteBlob _ => some .syncDeleteBlob
  | .relayPush _ => some .relayPush
  | .relayFetch _ => some .relayFetch
  | .relayAck _ => some .relayAck
  | .fetchMyAccepted _ => some .fetchMyAccepted
  | .ackMessage _ => some .ackMessage
  | .publishRecoveryKey _ => some .publishRecoveryKey
  | .recoveryClaim _ => some .recoveryClaim
  | .register _ | .getUpdateManifest _ | .getUpdateChunk _ | .refused _ => none

/-- The lengths a signed string may have. -/
inductive Lengths
  | exactly (ns : List Nat)
  | atLeast (n : Nat)

namespace Lengths

def contains : Lengths → Nat → Bool
  | exactly ns, n => ns.contains n
  | atLeast k, n => decide (k ≤ n)

/-- No length in common. -/
def disjoint : Lengths → Lengths → Bool
  | exactly ns, l => ns.all fun n ↦ !l.contains n
  | l, exactly ns => ns.all fun n ↦ !l.contains n
  | atLeast _, atLeast _ => false

theorem not_contains_of_disjoint {l l' : Lengths} (h : l.disjoint l' = true) {n : Nat}
    (hl : l.contains n = true) (hl' : l'.contains n = true) : False := by
  have hno {ns : List Nat} {l : Lengths} (hall : (ns.all fun n ↦ !l.contains n) = true)
      (hn : ns.contains n = true) : l.contains n = false := by
    simpa using List.all_eq_true.mp hall n (List.contains_iff_mem.mp hn)
  cases l with
  | exactly ns => exact absurd hl' (by simp [hno h hl])
  | atLeast k =>
      cases l' with
      | exactly ns => exact absurd hl (by simp [hno h hl'])
      | atLeast k' => exact nomatch h

end Lengths

/-- The lengths of the strings a method verifies.  User hashes have 32 bytes, timestamps 8, and
a device key that verifies anything has 1312. -/
def Method.lengths : Method → Lengths
  -- user hash, timestamp
  | .delete | .uploadPrekeys | .replenishPrekeys | .checkPrekeyCount => .exactly [40]
  -- two hashes, or a nonce and a hash, and a timestamp
  | .login | .lookupUser | .fetchPrekeyBundle => .exactly [72]
  -- user hash, two timestamps
  | .fetchFriendRequests | .fetchFriendResponses | .fetchMyAccepted => .exactly [48]
  -- the same with a page size
  | .fetchMessages => .exactly [52]
  -- a rejection, an acceptance
  | .respondFriendRequest => .exactly [41, 75]
  -- device key, id, timestamp
  | .relayFetch | .relayAck => .exactly [1328]
  -- one field of free length that is not empty, user hash, timestamp
  | .contact | .ackMessage | .publishRecoveryKey | .recoveryClaim => .atLeast 41
  -- the recipient, the message id and the content are of any length
  | .sendMessage => .atLeast 40
  -- a mailbox that is not empty, timestamp
  | .relayPush | .syncFetchBlob | .syncDeleteBlob => .atLeast 9
  | .syncPushBlob => .atLeast 10

/-- In some run, a request of the method `m` has passed its checks and `message` was verified
for it under `key`. -/
def Accepts (codec : Codec) (verifyDetached : Bytes → Bytes → Bytes → Bool) (m : Method)
    (key message : Bytes) : Prop :=
  ∃ c t call signature, Reachable codec verifyDetached c ∧ Runs c t (.request call) ∧
    call.method = some m ∧ (t, ⟨.verify key message signature, true⟩) ∈ c.trace

/-! ## Lengths of the fields -/

section

variable {codec : Codec} {verifyDetached : Bytes → Bytes → Bytes → Bool} {c : State} {t : Nat}

theorem Reachable.length_userHash (h : Reachable codec verifyDetached c) {x : User}
    (hx : x ∈ c.world.db.users) : x.userHashId.length = 32 := by
  by_contra hne
  obtain ⟨c₁, m, t, job, s, c₂, ms, h₁, hs, he, hold, ⟨y, hy, hlen⟩, -⟩ :=
    h.origin (P := fun db ↦ ∃ x ∈ db.users, x.userHashId.length ≠ 32)
      (fun hsame ⟨x, hx, hlen⟩ ↦ ⟨x, hsame.users.mem_iff.mpr hx, hlen⟩) (by simp [Db.migrated])
      ⟨x, hx, hne⟩
  have hguard := h₁.executes he
  rw [he.db] at hy
  rcases mem_users_exec hy with hy | ⟨n, rfl, -, rfl⟩ | ⟨z, hz, k, -, rfl⟩ |
    ⟨z, hz, k, g, b, -, rfl⟩
  · exact hold ⟨y, hy, hlen⟩
  · obtain ⟨-, req, -, rfl, h32⟩ := hguard
    exact hlen h32
  · exact hold ⟨z, hz, hlen⟩
  · exact hold ⟨z, hz, hlen⟩

theorem Reachable.length_nonce (h : Reachable codec verifyDetached c) {x : AuthChallenge}
    (hx : x ∈ c.world.db.authChallenges) : x.nonce.length = 32 := by
  by_contra hne
  obtain ⟨c₁, m, t, job, s, c₂, ms, h₁, hs, he, hold, ⟨y, hy, hlen⟩, -⟩ :=
    h.origin (P := fun db ↦ ∃ x ∈ db.authChallenges, x.nonce.length ≠ 32)
      (fun hsame ⟨x, hx, hlen⟩ ↦ ⟨x, hsame.authChallenges.mem_iff.mpr hx, hlen⟩)
      (by simp [Db.migrated]) ⟨x, hx, hne⟩
  have hguard := h₁.executes he
  rw [he.db] at hy
  rcases mem_authChallenges_exec hy with hy | ⟨n, rfl, rfl, -⟩
  · exact hold ⟨y, hy, hlen⟩
  · obtain ⟨req, row, now, -, -, -, -, -, h32, -⟩ := hguard
    exact hlen h32

/-- A user whose row was read has a hash of 32 bytes. -/
theorem Reachable.length_of_read (h : Reachable codec verifyDetached c) {u key : Bytes}
    (hk : IdentityKey (past t c.trace) u key) : u.length = 32 := by
  obtain ⟨row, hrow, -⟩ := hk
  obtain ⟨d, ms, hd, hr, -⟩ := h.read (did_past.mp hrow)
  obtain ⟨hx, hu⟩ := selectUser_sound hr
  rw [← hu]
  exact hd.length_userHash hx

/-- A challenge that was read has a nonce of 32 bytes. -/
theorem Reachable.length_of_challenge (h : Reachable codec verifyDetached c) {i u : Bytes}
    {x : AuthChallenge} (hx : Did (past t c.trace) (.sql (.selectChallenge i u)) (.ok x)) :
    x.nonce.length = 32 := by
  obtain ⟨d, ms, hd, hr, -⟩ := h.read (did_past.mp hx)
  exact hd.length_nonce (selectChallenge_sound hr).1

/-- What a request submits for verification under a key of the right size has one of the
lengths of its method. -/
theorem Reachable.length_submitted (h : Reachable codec verifyDetached c) {call : Call}
    {m : Method} {key message signature : Bytes} (hm : call.method = some m)
    (hs : call.Submits codec (past t c.trace) key message signature)
    (hkey : key.length = publicKeyBytes) : m.lengths.contains message.length = true := by
  cases call with
  | login req =>
      obtain rfl := Option.some.inj hm
      obtain ⟨row, proof, challenge, now, hread, -, rfl, -⟩ := hs
      have hrow := h.userHash_of_read (did_past.mp hread.userRow)
      have hnonce := h.length_of_challenge hread.challengeRow
      have hu := hread.length
      simp [Method.lengths, Lengths.contains, AuthProof.messageToVerify, hrow, hnonce, hu]
  | delete req =>
      obtain rfl := Option.some.inj hm
      obtain ⟨hu, -, -, rfl, -⟩ := hs
      simp [Method.lengths, Lengths.contains, DeleteRequest.signedData, hu]
  | contact req =>
      obtain rfl := Option.some.inj hm
      obtain ⟨-, htarget, hbundle, -, rfl, -⟩ := hs
      have := List.length_pos_iff.mpr hbundle
      simp only [Method.lengths, Lengths.contains, FriendRequest.messageToVerify,
        List.length_append, length_le64, decide_eq_true_eq]
      omega
  | lookupUser req =>
      obtain rfl := Option.some.inj hm
      obtain ⟨hr, ht, -, rfl, -⟩ := hs
      simp [Method.lengths, Lengths.contains, lookupMessage, hr, ht]
  | fetchFriendRequests req =>
      obtain rfl := Option.some.inj hm
      obtain ⟨hu, -, rfl, -⟩ := hs
      simp [Method.lengths, Lengths.contains, FetchFriendsRequest.signedData, hu]
  | respondFriendRequest req =>
      obtain rfl := Option.some.inj hm
      obtain ⟨hr, hq, -, -, rfl, -⟩ := hs
      unfold FriendResponse.messageToVerify
      split
      · simp [Method.lengths, Lengths.contains, acceptMessage, friendshipTag, hr, hq]
      · simp [Method.lengths, Lengths.contains, rejectMessage, hq]
  | sendMessage env =>
      obtain rfl := Option.some.inj hm
      obtain ⟨hk, rfl, -⟩ := hs
      have hu := h.length_of_read hk
      simp only [Method.lengths, Lengths.contains, ZenthSignalEnvelope.signedData,
        List.length_append, length_le64, decide_eq_true_eq]
      omega
  | fetchMessages req =>
      obtain rfl := Option.some.inj hm
      obtain ⟨hk, rfl, -⟩ := hs
      have hu := h.length_of_read hk
      simp [Method.lengths, Lengths.contains, FetchMessagesRequest.signedData, hu]
  | fetchFriendResponses req =>
      obtain rfl := Option.some.inj hm
      obtain ⟨hu, -, rfl, -⟩ := hs
      simp [Method.lengths, Lengths.contains, FetchFriendsRequest.signedData, hu]
  | uploadPrekeys req =>
      obtain rfl := Option.some.inj hm
      obtain ⟨hu, -, -, rfl, -⟩ := hs
      simp [Method.lengths, Lengths.contains, prekeyMessage, hu]
  | fetchPrekeyBundle req =>
      obtain rfl := Option.some.inj hm
      obtain ⟨hr, ht, -, rfl, -⟩ := hs
      simp [Method.lengths, Lengths.contains, lookupMessage, hr, ht]
  | checkPrekeyCount req =>
      obtain rfl := Option.some.inj hm
      obtain ⟨hu, -, rfl, -⟩ := hs
      simp [Method.lengths, Lengths.contains, prekeyMessage, hu]
  | replenishPrekeys req =>
      obtain rfl := Option.some.inj hm
      obtain ⟨hu, -, rfl, -⟩ := hs
      simp [Method.lengths, Lengths.contains, prekeyMessage, hu]
  | syncPushBlob req =>
      obtain rfl := Option.some.inj hm
      obtain ⟨hd, hc, -, -, rfl, -⟩ := hs
      have := List.length_pos_iff.mpr hd
      have := List.length_pos_iff.mpr hc
      simp only [Method.lengths, Lengths.contains, SyncPushBlobRequest.signedData,
        List.length_append, length_le64, decide_eq_true_eq]
      omega
  | syncFetchBlob req | syncDeleteBlob req =>
      obtain rfl := Option.some.inj hm
      obtain ⟨hd, -, -, rfl, -⟩ := hs
      have := List.length_pos_iff.mpr hd
      simp only [Method.lengths, Lengths.contains, SyncBlobRequest.signedData,
        List.length_append, length_le64, decide_eq_true_eq]
      omega
  | relayPush req =>
      obtain rfl := Option.some.inj hm
      obtain ⟨hd, -, -, rfl, -⟩ := hs
      have := List.length_pos_iff.mpr hd
      simp only [Method.lengths, Lengths.contains, RelayPushRequest.signedData,
        List.length_append, length_le64, decide_eq_true_eq]
      omega
  | relayFetch req =>
      obtain rfl := Option.some.inj hm
      obtain ⟨-, rfl, rfl, -⟩ := hs
      simp [Method.lengths, Lengths.contains, RelayFetchRequest.signedData, hkey, publicKeyBytes]
  | relayAck req =>
      obtain rfl := Option.some.inj hm
      obtain ⟨-, rfl, rfl, -⟩ := hs
      simp [Method.lengths, Lengths.contains, RelayAckRequest.signedData, hkey, publicKeyBytes]
  | fetchMyAccepted req =>
      obtain rfl := Option.some.inj hm
      obtain ⟨hu, -, rfl, -⟩ := hs
      simp [Method.lengths, Lengths.contains, FetchFriendsRequest.signedData, hu]
  | ackMessage req =>
      obtain rfl := Option.some.inj hm
      obtain ⟨hid, hk, rfl, -⟩ := hs
      have hu := h.length_of_read hk
      have := List.length_pos_iff.mpr hid
      simp only [Method.lengths, Lengths.contains, MessageAck.signedData,
        List.length_append, length_le64, decide_eq_true_eq]
      omega
  | publishRecoveryKey req =>
      obtain rfl := Option.some.inj hm
      obtain ⟨hu, hne, -, -, rfl, -⟩ := hs
      have := List.length_pos_iff.mpr hne
      simp only [Method.lengths, Lengths.contains, PublishRecoveryKeyRequest.signedData,
        List.length_append, length_le64, decide_eq_true_eq]
      omega
  | recoveryClaim req =>
      obtain rfl := Option.some.inj hm
      obtain ⟨hu, hne, -, -, rfl, -⟩ := hs
      have := List.length_pos_iff.mpr hne
      simp only [Method.lengths, Lengths.contains, RecoveryClaimRequest.signedData,
        List.length_append, length_le64, decide_eq_true_eq]
      omega
  | register req | getUpdateManifest req | getUpdateChunk req | refused msg => exact nomatch hm

/-- What was verified for a method has one of its lengths. -/
theorem Accepts.length {m : Method} {key message : Bytes}
    (h : Accepts codec verifyDetached m key message) :
    m.lengths.contains message.length = true := by
  obtain ⟨c, t, call, signature, hc, hruns, hm, he⟩ := h
  obtain ⟨pre, post, htr⟩ := List.append_of_mem he
  obtain ⟨c₁, ω, job, k, w, h₁, rfl, hpool, hperf, ms, -, hrun⟩ := hc.moment htr
  have hkey : key.length = publicKeyBytes := by
    obtain ⟨hv, -⟩ := Prod.mk.inj (Option.some.inj hperf)
    by_contra hne
    simp [verifyDilithiumSignature, hne] at hv
  obtain ⟨call', rfl, hs⟩ := h₁.guard hpool
  have hjob : Runs c t (.request call') := Runs.run ⟨_, hpool⟩ hrun
  cases hruns.unique hjob
  exact h₁.length_submitted hm hs hkey

end

/-! ## Strings that fit several methods

Every pair of methods with a length in common is shown to clash on a string of zeros: user 0,
whose hash and identity and recovery keys are all zeros, is asked to sign it for each of them. -/

/-- Thread `t` runs `job` and `message` was verified for it under `key`. -/
def VerifiedFor (c : State) (t : Nat) (job : Job) (key message : Bytes) : Prop :=
  (c.pool[t]?).map Thread.job = some job ∧
    ∃ e ∈ c.trace, e.1 = t ∧ verifiedBytes e.2 = some (key, message)

instance (c : State) (t : Nat) (job : Job) (key message : Bytes) :
    Decidable (VerifiedFor c t job key message) := inferInstanceAs (Decidable (_ ∧ _))

theorem VerifiedFor.verified {c : State} {t : Nat} {job : Job} {key message : Bytes}
    (h : VerifiedFor c t job key message) : Runs c t job ∧
      ∃ signature, (t, ⟨.verify key message signature, true⟩) ∈ c.trace := by
  obtain ⟨hjob, ⟨t, e⟩, he, rfl, hv⟩ := h
  obtain ⟨th, hth, rfl⟩ := Option.map_eq_some_iff.mp hjob
  refine ⟨⟨th.rest, hth⟩, ?_⟩
  unfold verifiedBytes at hv
  split at hv
  next key' message' signature heq =>
    obtain ⟨rfl, rfl⟩ := Prod.mk.inj (Option.some.inj hv)
    obtain rfl : e = _ := heq
    exact ⟨signature, he⟩
  · exact nomatch hv

namespace Sample

def zeros (n : Nat) : Bytes := List.replicate n 0

/-- The request of a method that signs `zeros n`, where it can. -/
def zeroCall (n : Nat) : Method → Call
  | .login => .login ⟨"0.1.2", word 0, false, some ⟨word 0, signature, 0⟩⟩
  | .delete => .delete ⟨word 0, signature, 0⟩
  | .contact => .contact ⟨word 1, word 0, zeros (n - 40), signature, [], 0⟩
  | .lookupUser => .lookupUser ⟨word 0, word 0, signature, 0⟩
  | .fetchFriendRequests => .fetchFriendRequests ⟨word 0, 0, signature, 0⟩
  | .respondFriendRequest => .respondFriendRequest ⟨word 0, word 0, false, [], signature, 0⟩
  | .sendMessage => .sendMessage ⟨1, word 0, zeros (n - 40), none, signature, 0, [], 0⟩
  | .fetchMessages => .fetchMessages ⟨word 0, 0, 0, 0, signature⟩
  | .fetchFriendResponses => .fetchFriendResponses ⟨word 0, 0, signature, 0⟩
  | .uploadPrekeys => .uploadPrekeys ⟨word 0, [⟨0, []⟩], signature, 0⟩
  | .fetchPrekeyBundle => .fetchPrekeyBundle ⟨word 0, word 0, signature, 0⟩
  | .checkPrekeyCount => .checkPrekeyCount ⟨word 0, signature, 0⟩
  | .replenishPrekeys => .replenishPrekeys ⟨word 0, [⟨0, []⟩], signature, 0⟩
  | .syncPushBlob => .syncPushBlob ⟨[0], zeros (n - 9), [], key 0, signature, 0, 0⟩
  | .syncFetchBlob => .syncFetchBlob ⟨zeros (n - 8), key 0, signature, 0⟩
  | .syncDeleteBlob => .syncDeleteBlob ⟨zeros (n - 8), key 0, signature, 0⟩
  | .relayPush => .relayPush ⟨zeros (n - 8), [0], zeros 12, key 0, signature, 0, 0⟩
  | .relayFetch => .relayFetch ⟨key 0, 0, 0, 0, signature⟩
  | .relayAck => .relayAck ⟨key 0, 0, 0, signature⟩
  | .fetchMyAccepted => .fetchMyAccepted ⟨word 0, 0, signature, 0⟩
  | .ackMessage => .ackMessage ⟨zeros (n - 40), word 0, 0, signature⟩
  | .publishRecoveryKey => .publishRecoveryKey ⟨word 0, zeros (n - 40), signature, 0⟩
  | .recoveryClaim => .recoveryClaim ⟨word 0, zeros (n - 40), [], [], signature, 0⟩

/-- The steps of a method up to its verification. -/
def stepsToVerify : Method → Nat
  | .login => 5
  | .delete | .contact | .uploadPrekeys | .syncPushBlob | .relayPush | .publishRecoveryKey
  | .recoveryClaim => 3
  | _ => 2

/-- Users 0 and 1 register with one key, user 0 gets a challenge of zeros and publishes the key
as its recovery key. -/
def zeroSetup : Moves :=
  .spawn (.request (.register ⟨word 0, [1], key 0, [1], [1], 0⟩)) :: steps 0 1 ++
  .spawn (.request (.register ⟨word 1, [1], key 0, [1], [1], 0⟩)) :: steps 1 1 ++
  .spawn (.request (.login ⟨"0.1.2", word 0, true, none⟩)) :: steps 2 2 ++
  [.step 2 (random 0), .step 2 (random 0)] ++ steps 2 3 ++
  .spawn (.request (.publishRecoveryKey ⟨word 0, key 0, signature, 0⟩)) :: steps 3 4

def probes : List Nat := [40, 41, 48, 52, 72, 1328]

/-- Everything that was signed with the key of zeros. -/
def zeroSigned : List (Bytes × Bytes) := (1352 :: probes).map fun n ↦ (key 0, zeros n)

def zeroRun (n : Nat) (m : Method) : Moves :=
  zeroSetup ++ .spawn (.request (zeroCall n m)) :: steps 4 (stepsToVerify m)

end Sample

open Sample in
/-- In the environment of zeros, a method verifies a string of zeros of each of its lengths. -/
theorem accepts_zeros {m : Method} {n : Nat} (hn : n ∈ probes)
    (hm : m.lengths.contains n = true) :
    Accepts Sample.codec (Sample.verify zeroSigned) m (key 0) (zeros n) := by
  have hall : (Method.all.all fun m ↦ probes.all fun n ↦ !m.lengths.contains n ||
      ((zeroCall n m).method = some m && (final zeroSigned (zeroRun n m)).any fun c ↦
        VerifiedFor c 4 (.request (zeroCall n m)) (key 0) (zeros n))) = true := by decide +kernel
  have hrun := List.all_eq_true.mp (List.all_eq_true.mp hall m m.mem_all) n hn
  simp only [hm, Bool.not_true, Bool.false_or, Bool.and_eq_true, decide_eq_true_eq,
    Option.any_eq_true] at hrun
  obtain ⟨hmethod, c, hc, hverified⟩ := hrun
  obtain ⟨hruns, signature, he⟩ := hverified.verified
  exact ⟨c, 4, zeroCall n m, signature, ⟨0, 0, _, hc⟩, hruns, hmethod, he⟩

/-- Methods with a length in common have one of a few in common. -/
theorem common_probe {m m' : Method} (h : m.lengths.disjoint m'.lengths = false) :
    ∃ n ∈ Sample.probes, m.lengths.contains n = true ∧ m'.lengths.contains n = true := by
  have hall : (Method.all.all fun m ↦ Method.all.all fun m' ↦ m.lengths.disjoint m'.lengths ||
      Sample.probes.any fun n ↦ m.lengths.contains n && m'.lengths.contains n) = true := by
    decide +kernel
  have hcommon := List.all_eq_true.mp (List.all_eq_true.mp hall m m.mem_all) m' m'.mem_all
  simpa [h] using hcommon

/-- **Separation of methods.**  The strings that requests of two methods have verified under one
key are different, in all runs and for all keys, exactly if the two methods have no length in
common. -/
theorem methods_separated_iff (m m' : Method) :
    (∀ codec verifyDetached key message, Accepts codec verifyDetached m key message →
      ¬ Accepts codec verifyDetached m' key message) ↔ m.lengths.disjoint m'.lengths = true := by
  constructor
  · intro hsep
    by_contra hne
    obtain ⟨n, hn, hm, hm'⟩ := common_probe (Bool.eq_false_iff.mpr hne)
    exact hsep _ _ _ _ (accepts_zeros hn hm) (accepts_zeros hn hm')
  · intro hdis codec verifyDetached key message ha ha'
    exact Lengths.not_contains_of_disjoint hdis ha.length ha'.length

namespace Sample

/-- User 0 asks for the number of its pre-keys, and then the same signature is sent with a
DELETE. -/
def reuseRun : Moves :=
  .spawn (.request (.register ⟨word 0, [1], key 0, [1], [1], 0⟩)) :: steps 0 1 ++
  .spawn (.request (.checkPrekeyCount ⟨word 0, signature, 0⟩)) :: steps 1 3 ++
  .spawn (.request (.delete ⟨word 0, signature, 0⟩)) :: steps 2 10

end Sample

open Sample in
/-- A signature made for CHECK_PREKEY_COUNT deletes the account: the requests carry the same
signature, it is verified for both over the same bytes, and the user's row is gone. -/
theorem count_signature_deletes : ∃ c, final zeroSigned reuseRun = some c ∧
    VerifiedFor c 1 (.request (.checkPrekeyCount ⟨word 0, signature, 0⟩)) (key 0) (zeros 40) ∧
    VerifiedFor c 2 (.request (.delete ⟨word 0, signature, 0⟩)) (key 0) (zeros 40) ∧
    c.world.db.users = [] := by
  have hrun : ((final zeroSigned reuseRun).any fun c ↦
      VerifiedFor c 1 (.request (.checkPrekeyCount ⟨word 0, signature, 0⟩)) (key 0) (zeros 40) ∧
      VerifiedFor c 2 (.request (.delete ⟨word 0, signature, 0⟩)) (key 0) (zeros 40) ∧
      c.world.db.users = []) = true := by decide +kernel
  rw [Option.any_eq_true] at hrun
  obtain ⟨c, hc, hfacts⟩ := hrun
  exact ⟨c, hc, of_decide_eq_true hfacts⟩

end ZenthDht
