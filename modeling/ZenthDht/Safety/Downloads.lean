import ZenthDht.Safety.Updates
import ZenthDht.Spec.Alone

/-!
# The download of an update

A client asks for one chunk after another, each from the end of the one before, until a response
says that it was the last.  The responses are together the file, as long as the end of every chunk
is a 64-bit number: a file of up to `2 ^ 64 - 524287` bytes is reassembled whatever chunk sizes the
client chooses, and a longer one is not for some of them (`download_reassembles`).
-/

namespace ZenthDht

open Conc

variable {codec : Codec} {verifyDetached : Bytes → Bytes → Bytes → Bool}
variable {c c' : State} {t : Nat} {req : UpdateChunkRequest} {entry : PlatformEntry}
variable {file : Bytes} {platform : String} {offset after : UInt64} {xs ys : List ChunkStep}

/-! ## Downloads -/

/-- A request of a download and its answer. -/
structure ChunkStep where
  thread : Nat
  req : UpdateChunkRequest
  reply : Reply

namespace ChunkStep

def data (x : ChunkStep) : Bytes :=
  match x.reply.payload with
  | .updateChunk resp => resp.data
  | _ => []

def isLast (x : ChunkStep) : Bool :=
  match x.reply.payload with
  | .updateChunk resp => resp.isLast
  | _ => false

end ChunkStep

/-- The manifest has the entry for the platform, and the store answers every range that starts in
the file with its bytes. -/
structure Supplied (file : Bytes) (entry : PlatformEntry) (platform : String) (done : Past) :
    Prop where
  manifest : ∀ a, Did done .getManifest a → listed platform a = some entry
  range : ∀ first last r, Did done (.getRange entry.file first last) r → first ≤ last →
    first.toNat < file.length → r = .ok (.ok (slice file first.toNat last.toNat))

/-- The requests of a client that goes on from one offset to another, until a response is the
last. -/
inductive Download (c : State) (platform : String) : UInt64 → List ChunkStep → UInt64 → Prop
  | nil (offset : UInt64) : Download c platform offset [] offset
  | cons {x : ChunkStep} {xs : List ChunkStep} {after : UInt64}
      (hanswer : c.answered x.thread = some (.request (.getUpdateChunk x.req), x.reply))
      (hplatform : x.req.platform = platform) (hchunk : x.req.chunkSize ≠ 0)
      (hgo : xs ≠ [] → x.isLast = false)
      (hrest : Download c platform (x.req.offset + UInt64.ofNat x.data.length) xs after) :
      Download c platform x.req.offset (x :: xs) after

/-- The response is as it should be. -/
structure ChunkStep.Good (file : Bytes) (x : ChunkStep) : Prop where
  success : ∃ resp, x.reply = ⟨true, .updateChunk resp, ""⟩
  nonempty : x.data ≠ []
  bytes : x.data <+: file.drop x.req.offset.toNat
  short : x.data.length ≤ min x.req.chunkSize.toNat 524288
  last : x.isLast = true ↔ x.req.offset.toNat + x.data.length = file.length

/-- The download is as it should be. -/
structure Reassembles (file : Bytes) (xs : List ChunkStep) : Prop where
  step : ∀ x ∈ xs, x.Good file
  /-- The last response completes the file. -/
  whole : (∃ x ∈ xs, x.isLast = true) → (xs.map ChunkStep.data).flatten = file
  /-- There are no more steps than bytes, and with that many the download is over. -/
  bounded : xs.length ≤ file.length
  terminates : xs.length = file.length → ∃ x ∈ xs, x.isLast = true

/-! ## One step -/

/-- The answer to a request whose chunk starts in the file and does not overflow. -/
theorem chunk_good (h : Reachable codec verifyDetached c) {x : ChunkStep}
    (hanswer : c.answered x.thread = some (.request (.getUpdateChunk x.req), x.reply))
    (hserved : Supplied file entry x.req.platform (past x.thread c.trace))
    (hsize : entry.size.toNat = file.length) (hchunk : x.req.chunkSize ≠ 0)
    (hoffset : x.req.offset.toNat < file.length)
    (hsum : x.req.offset.toNat + x.req.length.toNat ≤ 2 ^ 64) : x.Good file := by
  obtain ⟨t, req, reply⟩ := x
  dsimp only at hanswer hserved hchunk hoffset hsum
  obtain ⟨r, hends, rfl⟩ := h.request_answer (processCall_chunk_ends req) hanswer
  have hpos := length_pos_iff.mpr hchunk
  have hlength := req.toNat_length
  have hend := UpdateChunkRequest.toNat_rangeEnd_of_le hpos hsum (by omega : 0 < entry.size.toNat)
  have hordered : req.offset ≤ req.rangeEnd entry.size := UInt64.le_iff_toNat_le.mpr (by omega)
  generalize past t c.trace = done at hserved hends
  cases hends with
  | unlisted a message hnone =>
      exact nomatch hnone.symm.trans (hserved.manifest a List.mem_cons_self)
  | unserved a entry' r message hlisted hr =>
      obtain rfl := Option.some.inj ((hserved.manifest a List.mem_cons_self).symm.trans hlisted)
      exact absurd (hserved.range _ _ _ (List.mem_cons_of_mem _ List.mem_cons_self) hordered hoffset)
        (hr _)
  | served a entry' data hlisted =>
      obtain rfl := Option.some.inj ((hserved.manifest a List.mem_cons_self).symm.trans hlisted)
      have hdata := hserved.range _ _ _ (List.mem_cons_of_mem _ List.mem_cons_self) hordered hoffset
      obtain rfl := Except.ok.inj (Except.ok.inj hdata)
      have hlen : (slice file req.offset.toNat (req.rangeEnd entry.size).toNat).length =
          min req.length.toNat (file.length - req.offset.toNat) := by
        rw [length_slice]
        omega
      refine ⟨⟨_, rfl⟩, ?_, slice_prefix _ _ _, ?_, ?_⟩
      · refine List.ne_nil_of_length_pos ?_
        change 0 < (slice _ _ _).length
        omega
      · change (slice _ _ _).length ≤ min req.chunkSize.toNat _
        omega
      · change decide (entry.size ≤ req.offset + UInt64.ofNat (slice _ _ _).length) = true ↔
          req.offset.toNat + (slice _ _ _).length = _
        have hlong := entry.size.toNat_lt
        rw [hlen, decide_eq_true_eq, UInt64.le_iff_toNat_le, UInt64.toNat_add, UInt64.toNat_ofNat']
        omega

/-- A client that goes on is inside the file. -/
theorem ChunkStep.Good.next {x : ChunkStep} (h : x.Good file) (hlong : file.length < 2 ^ 64)
    (hoffset : x.req.offset.toNat < file.length) (hlast : x.isLast = false) :
    (x.req.offset + UInt64.ofNat x.data.length).toNat = x.req.offset.toNat + x.data.length ∧
      x.req.offset.toNat + x.data.length < file.length := by
  have hle := h.bytes.length_le
  rw [List.length_drop] at hle
  have hne : x.req.offset.toNat + x.data.length ≠ file.length := fun he ↦
    nomatch hlast.symm.trans (h.last.mpr he)
  rw [UInt64.toNat_add, UInt64.toNat_ofNat']
  omega

/-! ## All steps -/

/-- The chunks cut the file; the download is at the end of it when a response was the last, and
before it otherwise. -/
theorem Download.tiles (h : Reachable codec verifyDetached c) (hsize : entry.size.toNat = file.length)
    (hlimit : file.length ≤ 2 ^ 64 - 524287) (hd : Download c platform offset xs after)
    (hserved : ∀ x ∈ xs, Supplied file entry platform (past x.thread c.trace))
    (hoffset : offset.toNat < file.length) :
    (∀ x ∈ xs, x.Good file) ∧ ∃ b, Tiles file offset.toNat (xs.map ChunkStep.data) b ∧
      ((∃ x ∈ xs, x.isLast = true) → b = file.length) ∧
      ((∀ x ∈ xs, x.isLast = false) → b < file.length) := by
  induction hd with
  | nil offset => exact ⟨nofun, _, .nil _, nofun, fun _ ↦ hoffset⟩
  | @cons x xs after hanswer hplatform hchunk hgo hrest ih =>
      have hlength := x.req.toNat_length
      have hgood : x.Good file := chunk_good h hanswer (hplatform ▸ hserved x List.mem_cons_self)
        hsize hchunk hoffset (by omega)
      cases hlast : x.isLast with
      | true =>
          cases xs with
          | cons y ys => exact nomatch hlast.symm.trans (hgo (List.cons_ne_nil _ _))
          | nil =>
              refine ⟨fun y hy ↦ List.mem_singleton.mp hy ▸ hgood, _,
                .cons hgood.nonempty hgood.bytes (.nil _), fun _ ↦ hgood.last.mp hlast, fun hno ↦ ?_⟩
              exact nomatch hlast.symm.trans (hno x List.mem_cons_self)
      | false =>
          obtain ⟨hnext, hlt⟩ := hgood.next (hsize ▸ entry.size.toNat_lt) hoffset hlast
          obtain ⟨hall, b, htiles, hdone, hmore⟩ := ih
            (fun y hy ↦ hserved y (List.mem_cons_of_mem _ hy)) (hnext ▸ hlt)
          rw [hnext] at htiles
          refine ⟨List.forall_mem_cons.mpr ⟨hgood, hall⟩, b,
            .cons hgood.nonempty hgood.bytes htiles, ?_, fun hno ↦ hmore fun y hy ↦
              hno y (List.mem_cons_of_mem _ hy)⟩
          rintro ⟨y, hy, hyl⟩
          rcases List.mem_cons.mp hy with rfl | hy
          · exact nomatch hlast.symm.trans hyl
          · exact hdone ⟨y, hy, hyl⟩

/-- **Reassembly.**  A download of a file whose chunks cannot overflow. -/
theorem Download.reassembles (h : Reachable codec verifyDetached c)
    (hsize : entry.size.toNat = file.length) (hpos : file ≠ [])
    (hlimit : file.length ≤ 2 ^ 64 - 524287) (hd : Download c platform 0 xs after)
    (hserved : ∀ x ∈ xs, Supplied file entry platform (past x.thread c.trace)) :
    Reassembles file xs := by
  obtain ⟨hgood, b, htiles, hdone, hmore⟩ :=
    hd.tiles h hsize hlimit hserved (List.length_pos_of_ne_nil hpos)
  have hlength := htiles.length_le
  have hend := htiles.le_length (Nat.zero_le _)
  rw [List.length_map] at hlength
  refine ⟨hgood, fun hlast ↦ ?_, by omega, fun hfull ↦ ?_⟩
  · rw [hdone hlast] at htiles
    exact htiles.whole
  · by_contra hno
    have hb := hmore fun x hx ↦ Bool.eq_false_iff.mpr fun hl ↦ hno ⟨x, hx, hl⟩
    omega

/-! ## Downloads that overflow -/

/-- Only thread `n` has done something between the two states. -/
def Apart (n : Nat) (c c' : State) : Prop :=
  ∀ t ≠ n, c'.pool[t]? = c.pool[t]? ∧ past t c'.trace = past t c.trace

theorem Apart.trans {n : Nat} {d : State} (h : Apart n c c') (h' : Apart n c' d) : Apart n c d :=
  fun t ht ↦ ⟨(h' t ht).1.trans (h t ht).1, (h' t ht).2.trans (h t ht).2⟩

/-- A new thread. -/
theorem Reachable.spawned_thread (h : Reachable codec verifyDetached c) (job : Job) :
    ∃ c', Reachable codec verifyDetached c' ∧ Apart c.pool.length c c' ∧
      c'.pool[c.pool.length]? = some ⟨job, code codec job⟩ ∧
      past c.pool.length c'.trace = [] := by
  refine ⟨{ c with pool := c.pool ++ [⟨job, code codec job⟩] }, ?_, fun t ht ↦ ⟨?_, rfl⟩,
    List.getElem?_concat_length, h.no_past⟩
  · exact h.run ((Machine.Step.spawn (M := server codec verifyDetached) job).run_cons
      Machine.run_nil)
  · rcases Nat.lt_or_gt_of_ne ht with hlt | hgt
    · exact List.getElem?_append_left hlt
    · rw [List.getElem?_eq_none (Nat.le_of_lt hgt), List.getElem?_eq_none]
      rw [List.length_append]
      exact hgt

/-- A step of a thread. -/
theorem Reachable.stepped {n : Nat} {job : Job} {o : Op} {k : Res o → Handler (Option Reply)}
    {r : Res o} {w : World} (h : Reachable codec verifyDetached c) (ω : Oracle)
    (ht : c.pool[n]? = some ⟨job, .perform o k⟩)
    (hp : perform verifyDetached o ω c.world = some (r, w)) :
    ∃ c', Reachable codec verifyDetached c' ∧ Apart n c c' ∧ c'.pool[n]? = some ⟨job, k r⟩ ∧
      past n c'.trace = past n c.trace ++ [⟨o, r⟩] := by
  obtain ⟨hlt, -⟩ := List.getElem?_eq_some_iff.mp ht
  refine ⟨⟨w, c.pool.set n ⟨job, k r⟩, c.trace ++ [(n, ⟨o, r⟩)]⟩, ?_, fun t htn ↦ ⟨?_, ?_⟩,
    List.getElem?_set_self hlt, by simp⟩
  · exact h.run ((Machine.Step.step (M := server codec verifyDetached) ht hp).run_cons
      Machine.run_nil)
  · exact List.getElem?_set_ne htn.symm
  · rw [past_append, past_singleton_ne htn.symm, List.append_nil]

/-- A manifest with one entry. -/
def offers (platform : String) (entry : PlatformEntry) : Except String ManifestAnswer :=
  .ok ⟨true, "200 OK", .ok ⟨"", "", [(platform, entry)]⟩⟩

theorem listed_offers (platform : String) (entry : PlatformEntry) :
    listed platform (offers platform entry) = some entry := by
  simp [listed, offers, Except.toOption, Manifest.entry]

/-- The request of a new thread, which the store answers with `data`. -/
theorem chunk_served (h : Reachable codec verifyDetached c) (req : UpdateChunkRequest)
    (entry : PlatformEntry) (data : Bytes) :
    ∃ c', Reachable codec verifyDetached c' ∧ Apart c.pool.length c c' ∧
      c'.answered c.pool.length = some (.request (.getUpdateChunk req),
        ⟨true, .updateChunk (req.response entry.size data), ""⟩) ∧
      past c.pool.length c'.trace = [⟨.getManifest, offers req.platform entry⟩,
        ⟨.getRange entry.file req.offset (req.rangeEnd entry.size), .ok (.ok data)⟩] := by
  obtain ⟨k, hcode, k', hk, hk'⟩ : ∃ k, code codec (.request (.getUpdateChunk req)) =
        .perform .getManifest k ∧ ∃ k', k (offers req.platform entry) =
          .perform (.getRange entry.file req.offset (req.rangeEnd entry.size)) k' ∧
      k' (.ok (.ok data)) =
        .ret (some ⟨true, .updateChunk (req.response entry.size data), ""⟩) := by
    have hentry : Manifest.entry ⟨"", "", [(req.platform, entry)]⟩
        (if req.currentVersion ≠ "" then req.currentVersion else "linux-x86_64-deb") =
          some entry := by
      simp [Manifest.entry, UpdateChunkRequest.platform]
    refine ⟨_, rfl, ?_⟩
    dsimp only [offers, Program.bind]
    rw [hentry]
    exact ⟨_, rfl, rfl⟩
  obtain ⟨c₁, h₁, hapart₁, ht₁, hpast₁⟩ := h.spawned_thread (.request (.getUpdateChunk req))
  rw [hcode] at ht₁
  obtain ⟨c₂, h₂, hapart₂, ht₂, hpast₂⟩ := h₁.stepped (.manifest (offers req.platform entry)) ht₁ rfl
  rw [hk] at ht₂
  obtain ⟨c₃, h₃, hapart₃, ht₃, hpast₃⟩ := h₂.stepped (.range (.ok (.ok data))) ht₂ rfl
  rw [hk'] at ht₃
  refine ⟨c₃, h₃, (hapart₁.trans hapart₂).trans hapart₃, answered_iff.mpr ht₃, ?_⟩
  rw [hpast₃, hpast₂, hpast₁]
  rfl

theorem Apart.answered (h : Apart c.pool.length c c') {job : Job} {reply : Reply}
    (hans : c.answered t = some (job, reply)) :
    c'.answered t = some (job, reply) ∧ past t c'.trace = past t c.trace := by
  have hpool := answered_iff.mp hans
  obtain ⟨hlt, -⟩ := List.getElem?_eq_some_iff.mp hpool
  obtain ⟨hsame, hpast⟩ := h t (Nat.ne_of_lt hlt)
  exact ⟨answered_iff.mpr (hsame.trans hpool), hpast⟩

/-- A download of which no response was the last goes on. -/
theorem Download.append {e : UInt64} (h : Download c platform offset xs e)
    (hno : ∀ x ∈ xs, x.isLast = false) (h' : Download c platform e ys after) :
    Download c platform offset (xs ++ ys) after := by
  induction h with
  | nil offset => exact h'
  | @cons x xs e hanswer hplatform hchunk hgo _ ih =>
      exact .cons hanswer hplatform hchunk (fun _ ↦ hno x List.mem_cons_self)
        (ih (fun y hy ↦ hno y (List.mem_cons_of_mem _ hy)) h')

theorem Download.later (h : Download c platform offset xs after) (hap : Apart c.pool.length c c') :
    Download c' platform offset xs after ∧
      ∀ x ∈ xs, past x.thread c'.trace = past x.thread c.trace := by
  induction h with
  | nil offset => exact ⟨.nil offset, nofun⟩
  | @cons x xs after hanswer hplatform hchunk hgo _ ih =>
      obtain ⟨hanswer', hpast⟩ := hap.answered hanswer
      exact ⟨.cons hanswer' hplatform hchunk hgo ih.1, List.forall_mem_cons.mpr ⟨hpast, ih.2⟩⟩

/-- The client can make another request, and a store that owes it nothing else may send `data`. -/
theorem Download.goesOn (h : Reachable codec verifyDetached c) (req : UpdateChunkRequest)
    (hd : Download c platform offset xs req.offset)
    (hserved : ∀ x ∈ xs, Supplied file entry platform (past x.thread c.trace))
    (hno : ∀ x ∈ xs, x.isLast = false) (hplatform : req.platform = platform)
    (hchunk : req.chunkSize ≠ 0) (data : Bytes)
    (hdata : req.offset ≤ req.rangeEnd entry.size → req.offset.toNat < file.length →
      data = slice file req.offset.toNat (req.rangeEnd entry.size).toNat) :
    ∃ c' x, Reachable codec verifyDetached c' ∧ x.req = req ∧
      x.reply = ⟨true, .updateChunk (req.response entry.size data), ""⟩ ∧
      c'.answered x.thread = some (.request (.getUpdateChunk x.req), x.reply) ∧
      Download c' platform offset (xs ++ [x]) (req.offset + UInt64.ofNat data.length) ∧
      ∀ y ∈ xs ++ [x], Supplied file entry platform (past y.thread c'.trace) := by
  obtain ⟨c', hc', hap, hans, hpast⟩ := chunk_served h req entry data
  let x : ChunkStep := ⟨c.pool.length, req, ⟨true, .updateChunk (req.response entry.size data), ""⟩⟩
  obtain ⟨hd', hsame⟩ := hd.later hap
  refine ⟨c', x, hc', rfl, rfl, hans, ?_, fun y hy ↦ ?_⟩
  · exact hd'.append hno (.cons (x := x) hans hplatform hchunk (absurd rfl) (.nil _))
  · rcases List.mem_append.mp hy with hy | hy
    · rw [hsame y hy]
      exact hserved y hy
    · obtain rfl := List.mem_singleton.mp hy
      change Supplied file entry platform (past c.pool.length c'.trace)
      rw [hpast]
      refine ⟨fun a ha ↦ ?_, fun first last r hr hle hlt ↦ ?_⟩
      · cases List.mem_cons.mp ha with
        | inl he =>
            cases he
            exact hplatform ▸ listed_offers _ _
        | inr he => exact nomatch List.mem_singleton.mp he
      · cases List.mem_cons.mp hr with
        | inl he => exact nomatch he
        | inr he =>
            cases List.mem_singleton.mp he
            exact congrArg (fun data ↦ Except.ok (Except.ok data)) (hdata hle hlt)

/-- A client that asks for single bytes gets to every place in the file. -/
theorem download_to (codec : Codec) (verifyDetached : Bytes → Bytes → Bytes → Bool)
    (hsize : entry.size.toNat = file.length) {n : Nat} (hn : n < file.length) :
    ∃ c xs, Reachable codec verifyDetached c ∧
      Download c "linux-x86_64-deb" 0 xs (UInt64.ofNat n) ∧
      (∀ x ∈ xs, Supplied file entry "linux-x86_64-deb" (past x.thread c.trace)) ∧
      ∀ x ∈ xs, x.isLast = false := by
  induction n with
  | zero => exact ⟨.start (.initial 0 0), [], ⟨0, 0, [], rfl⟩, .nil 0, nofun, nofun⟩
  | succ n ih =>
      obtain ⟨c, xs, h, hd, hserved, hno⟩ := ih (Nat.lt_of_succ_lt hn)
      let req : UpdateChunkRequest := ⟨"", UInt64.ofNat n, 1⟩
      have hlong : file.length < 2 ^ 64 := hsize ▸ entry.size.toNat_lt
      have hoffset : req.offset.toNat = n := by
        change (UInt64.ofNat n).toNat = n
        rw [UInt64.toNat_ofNat']
        omega
      obtain ⟨c', x, hc', hreq, hreply, hans, hd', hserved'⟩ := hd.goesOn h req hserved hno
        rfl (by decide : (1 : UInt32) ≠ 0) (slice file req.offset.toNat (req.rangeEnd entry.size).toNat)
        fun _ _ ↦ rfl
      have hdata : x.data = slice file req.offset.toNat (req.rangeEnd entry.size).toNat := by
        simp [ChunkStep.data, hreply, UpdateChunkRequest.response]
      have hlength : req.length.toNat = 1 := req.toNat_length
      have hserves := hserved' x (List.mem_append_right _ (List.mem_singleton.mpr rfl))
      have hgood : x.Good file := by
        refine chunk_good hc' hans (hreq ▸ hserves) hsize ?_ ?_ ?_
        · exact hreq ▸ (by decide : (1 : UInt32) ≠ 0)
        · rw [hreq, hoffset]
          omega
        · rw [hreq, hoffset, hlength]
          omega
      have hone : x.data.length = 1 := by
        have hshort := hgood.short
        have hpos := List.length_pos_of_ne_nil hgood.nonempty
        rw [hreq] at hshort
        exact Nat.le_antisymm (hshort.trans (Nat.min_le_left _ _)) hpos
      have hlast : x.isLast = false := by
        refine Bool.eq_false_iff.mpr fun hl ↦ ?_
        have hend := hgood.last.mp hl
        rw [hreq, hoffset, hone] at hend
        omega
      have hnext : req.offset + UInt64.ofNat (slice file req.offset.toNat
          (req.rangeEnd entry.size).toNat).length = UInt64.ofNat (n + 1) := by
        rw [← hdata, hone]
        exact (UInt64.ofNat_add n 1).symm
      refine ⟨c', xs ++ [x], hc', hnext ▸ hd', hserved', fun y hy ↦ ?_⟩
      rcases List.mem_append.mp hy with hy | hy
      · exact hno y hy
      · exact List.mem_singleton.mp hy ▸ hlast

/-- In a file that is too long the client can ask for a chunk whose end overflows; a store that
ignores the range then sends the whole file. -/
theorem download_overflows (codec : Codec) (verifyDetached : Bytes → Bytes → Bytes → Bool)
    (hsize : entry.size.toNat = file.length)
    (hlong : 2 ^ 64 - 524287 < file.length) :
    ∃ c xs after, Reachable codec verifyDetached c ∧
      Download c "linux-x86_64-deb" 0 xs after ∧
      (∀ x ∈ xs, Supplied file entry "linux-x86_64-deb" (past x.thread c.trace)) ∧
      ¬ Reassembles file xs := by
  obtain ⟨c, xs, h, hd, hserved, hno⟩ := download_to codec verifyDetached hsize hlong
  let req : UpdateChunkRequest := ⟨"", UInt64.ofNat (2 ^ 64 - 524287), 524288⟩
  have hend : ¬ req.offset ≤ req.rangeEnd entry.size := by
    intro hle
    have hle : req.offset.toNat ≤ (req.rangeEnd entry.size).toNat := UInt64.le_iff_toNat_le.mp hle
    have hoffset : req.offset.toNat = 2 ^ 64 - 524287 := rfl
    have hlength : req.length.toNat = 524288 := req.toNat_length
    rw [req.toNat_rangeEnd, hoffset, hlength] at hle
    omega
  obtain ⟨c', x, hc', hreq, hreply, -, hd', hserved'⟩ := hd.goesOn h req hserved hno rfl
    (by decide : (524288 : UInt32) ≠ 0) file fun hle ↦ absurd hle hend
  refine ⟨c', xs ++ [x], _, hc', hd', hserved', fun hgood ↦ ?_⟩
  have hshort := (hgood.step x (List.mem_append_right _ (List.mem_singleton.mpr rfl))).short
  have hdata : x.data = file := by
    simp [ChunkStep.data, hreply, UpdateChunkRequest.response]
  rw [hdata] at hshort
  omega

/-- Every download of the file reassembles it if and only if no chunk of the file can overflow. -/
theorem download_reassembles (hsize : entry.size.toNat = file.length) (hpos : file ≠ []) :
    (∀ c platform xs after, Reachable codec verifyDetached c → Download c platform 0 xs after →
      (∀ x ∈ xs, Supplied file entry platform (past x.thread c.trace)) → Reassembles file xs) ↔
      file.length ≤ 2 ^ 64 - 524287 := by
  constructor
  · intro hall
    by_contra hlong
    obtain ⟨c, xs, after, h, hd, hserved, hbad⟩ :=
      download_overflows codec verifyDetached hsize (Nat.lt_of_not_le hlong)
    exact hbad (hall c _ xs after h hd hserved)
  · intro hlimit c platform xs after h hd hserved
    exact hd.reassembles h hsize hpos hlimit hserved

/-- The entry of a file of three bytes. -/
def Sample.smallEntry : PlatformEntry := ⟨"zenth.deb", "", 3, ""⟩

/-- The download of a file of three bytes in two chunks. -/
theorem download_reassembles_two : ∃ c xs after, Reachable Sample.codec (Sample.verify []) c ∧
    Download c "linux-x86_64-deb" 0 xs after ∧ xs.map ChunkStep.data = [[1, 2], [3]] ∧
    Reassembles [1, 2, 3] xs := by
  have hstart : Reachable Sample.codec (Sample.verify []) (.start (.initial 0 0)) := ⟨0, 0, [], rfl⟩
  have hsize : Sample.smallEntry.size.toNat = ([1, 2, 3] : Bytes).length := rfl
  have hserved₀ : ∀ x ∈ ([] : List ChunkStep), Supplied [1, 2, 3] Sample.smallEntry
      "linux-x86_64-deb" (past x.thread []) := nofun
  obtain ⟨c₁, x₁, h₁, -, hreply₁, -, hd₁, hserved₁⟩ := Download.goesOn hstart ⟨"", 0, 2⟩ (.nil 0)
    hserved₀ nofun rfl (by decide) [1, 2] fun _ _ ↦ by decide +kernel
  have hdata₁ : x₁.data = [1, 2] := by
    simp [ChunkStep.data, hreply₁, UpdateChunkRequest.response]
  have hlast₁ : x₁.isLast = false := by
    simp only [ChunkStep.isLast, hreply₁]
    decide +kernel
  obtain ⟨c₂, x₂, h₂, -, hreply₂, -, hd₂, hserved₂⟩ := Download.goesOn h₁ ⟨"", 2, 2⟩ hd₁ hserved₁
    (fun y hy ↦ List.mem_singleton.mp hy ▸ hlast₁) rfl (by decide) [3]
    fun _ _ ↦ by decide +kernel
  have hdata₂ : x₂.data = [3] := by
    simp [ChunkStep.data, hreply₂, UpdateChunkRequest.response]
  refine ⟨c₂, _, _, h₂, hd₂, ?_, ?_⟩
  · simp [hdata₁, hdata₂]
  · exact (download_reassembles hsize (List.cons_ne_nil _ _)).mpr (by decide) c₂ _ _ _ h₂ hd₂
      hserved₂

/-- A download of a file of `2 ^ 64 - 1` bytes that fails. -/
theorem long_download_fails : ∃ c xs after, Reachable Sample.codec (Sample.verify []) c ∧
    Download c "linux-x86_64-deb" 0 xs after ∧
    (∀ x ∈ xs, Supplied (List.replicate (2 ^ 64 - 1) 0)
      ⟨"zenth.deb", "", UInt64.ofNat (2 ^ 64 - 1), ""⟩ "linux-x86_64-deb"
        (past x.thread c.trace)) ∧
    ¬ Reassembles (List.replicate (2 ^ 64 - 1) 0) xs := by
  refine download_overflows _ _ ?_ ?_
  · rw [List.length_replicate]
    rfl
  · rw [List.length_replicate]
    decide

end ZenthDht
