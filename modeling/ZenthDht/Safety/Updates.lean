import ZenthDht.Data.Chunks
import ZenthDht.Spec.Run

/-!
# The range of an update chunk

GET_UPDATE_CHUNK asks the store for the bytes from `offset` to the smaller of
`offset + chunk_size - 1` and `size - 1`, on 64-bit numbers and without a check.  The sum and both
differences can wrap, and an offset past the end or an empty chunk gives a range whose end precedes
its start.  The range is as it should be exactly for a chunk that is not empty, starts in the file
and whose end is a 64-bit number (`chunk_range_safe`).
-/

namespace ZenthDht

open Conc

variable {codec : Codec} {verifyDetached : Bytes → Bytes → Bytes → Bool}
variable {c : State} {t : Nat} {req : UpdateChunkRequest} {entry : PlatformEntry}
variable {first last size : UInt64}

/-! ## What a chunk request does -/

namespace UpdateChunkRequest

/-- The platform in the request. -/
def platform (req : UpdateChunkRequest) : String :=
  if req.currentVersion ≠ "" then req.currentVersion else "linux-x86_64-deb"

/-- The length of the chunk asked for, cut at `MAX_CHUNK_SIZE`. -/
def length (req : UpdateChunkRequest) : UInt64 := (min req.chunkSize maxChunkSize).toUInt64

/-- The response with the bytes `data` of a file of `total` bytes. -/
def response (req : UpdateChunkRequest) (total : UInt64) (data : Bytes) : UpdateChunkResponse where
  offset := req.offset
  data
  isLast := decide (total ≤ req.offset + UInt64.ofNat data.length)
  total

end UpdateChunkRequest

/-- The entry for the platform in the manifest that the store answers with. -/
def listed (platform : String) (a : Except String ManifestAnswer) : Option PlatformEntry :=
  a.toOption.bind fun resp ↦ resp.json.toOption.bind fun manifest ↦ manifest.entry platform

/-- The entry for the platform that has been read. -/
def entryRead (platform : String) (done : Past) : Option PlatformEntry :=
  done.findSome? fun
    | ⟨.getManifest, a⟩ => listed platform a
    | _ => none

/-- A chunk request reads the manifest, and then the range of the entry in it. -/
def ChunkOrder (req : UpdateChunkRequest) (done : Past) : Op → Prop
  | .getManifest => done = []
  | .getRange file first last => ∃ a entry, done = [⟨.getManifest, a⟩] ∧
      listed req.platform a = some entry ∧ file = entry.file ∧ first = req.offset ∧
      last = req.rangeEnd entry.size
  | _ => False

/-- The three ways in which a chunk request ends. -/
inductive UpdateChunkRequest.Ends (req : UpdateChunkRequest) :
    Past → Except String UpdateChunkResponse → Prop
  | unlisted (a : Except String ManifestAnswer) (message : String)
      (h : listed req.platform a = none) : Ends req [⟨.getManifest, a⟩] (.error message)
  | unserved (a : Except String ManifestAnswer) (entry : PlatformEntry)
      (r : Except String RangeAnswer) (message : String) (h : listed req.platform a = some entry)
      (hr : ∀ data, r ≠ .ok (.ok data)) :
      Ends req [⟨.getManifest, a⟩,
        ⟨.getRange entry.file req.offset (req.rangeEnd entry.size), r⟩] (.error message)
  | served (a : Except String ManifestAnswer) (entry : PlatformEntry) (data : Bytes)
      (h : listed req.platform a = some entry) :
      Ends req [⟨.getManifest, a⟩,
        ⟨.getRange entry.file req.offset (req.rangeEnd entry.size), .ok (.ok data)⟩]
        (.ok (req.response entry.size data))

theorem getUpdateChunk_ends (req : UpdateChunkRequest) :
    (getUpdateChunk req).Obeys (ChunkOrder req) (fun done r ↦ req.Ends done r) [] := by
  unfold getUpdateChunk
  refine obeys_call rfl fun a ↦ ?_
  split
  · exact .unlisted _ _ rfl
  next resp =>
  split
  next e hjson => exact .unlisted _ _ (by simp [listed, Except.toOption, hjson])
  next manifest hjson =>
  have hlisted : listed req.platform (.ok resp) = manifest.entry req.platform := by
    simp [listed, Except.toOption, hjson]
  split
  next hnone => exact .unlisted _ _ (hlisted.trans hnone)
  next entry hentry =>
  have hlists : listed req.platform (.ok resp) = some entry := hlisted.trans hentry
  refine obeys_call ⟨_, entry, rfl, hlists, rfl, rfl, rfl⟩ fun r ↦ ?_
  split
  · exact .unserved _ entry _ _ hlists nofun
  · exact .unserved _ entry _ _ hlists nofun
  · exact .served _ entry _ hlists

theorem processCall_chunk_ends (req : UpdateChunkRequest) :
    (processCall codec (.getUpdateChunk req)).Obeys (ChunkOrder req) (fun done reply ↦
      ∃ r, req.Ends done r ∧ reply = .successful .updateChunk r) [] :=
  (getUpdateChunk_ends req).bind fun _ r h ↦ ⟨r, h, rfl⟩

/-! ## The arithmetic -/

theorem toNat_minUInt64 (a b : UInt64) : (min a b).toNat = min a.toNat b.toNat := by
  change (if a ≤ b then a else b).toNat = _
  split
  next h =>
    have hle : a.toNat ≤ b.toNat := UInt64.le_iff_toNat_le.mp h
    omega
  next h =>
    have hlt : ¬ a.toNat ≤ b.toNat := fun hle ↦ h (UInt64.le_iff_toNat_le.mpr hle)
    omega

namespace UpdateChunkRequest

theorem toNat_length (req : UpdateChunkRequest) :
    req.length.toNat = min req.chunkSize.toNat 524288 := by
  have hmax : maxChunkSize.toNat = 524288 := rfl
  change (if req.chunkSize ≤ maxChunkSize then req.chunkSize else maxChunkSize).toUInt64.toNat = _
  rw [UInt32.toNat_toUInt64]
  split
  next h =>
    have hle : req.chunkSize.toNat ≤ maxChunkSize.toNat := UInt32.le_iff_toNat_le.mp h
    omega
  next h =>
    have hlt : ¬ req.chunkSize.toNat ≤ maxChunkSize.toNat :=
      fun hle ↦ h (UInt32.le_iff_toNat_le.mpr hle)
    omega

theorem toNat_rangeEnd (req : UpdateChunkRequest) (size : UInt64) :
    (req.rangeEnd size).toNat =
      min ((2 ^ 64 - 1 + (req.offset.toNat + req.length.toNat) % 2 ^ 64) % 2 ^ 64)
        ((2 ^ 64 - 1 + size.toNat) % 2 ^ 64) := by
  change (min (req.offset + req.length - 1) (size - 1)).toNat = _
  rw [toNat_minUInt64, UInt64.toNat_sub, UInt64.toNat_sub, UInt64.toNat_add]
  rfl

/-- The last byte of the range, when nothing wraps. -/
theorem toNat_rangeEnd_of_le (h : 0 < req.length.toNat)
    (hsum : req.offset.toNat + req.length.toNat ≤ 2 ^ 64) (hsize : 0 < size.toNat) :
    (req.rangeEnd size).toNat + 1 = min (req.offset.toNat + req.length.toNat) size.toNat := by
  have hlt := size.toNat_lt
  rw [toNat_rangeEnd]
  omega

end UpdateChunkRequest

/-- The range from `first` to `last` asked for a chunk of a file of `size` bytes is as it should
be. -/
structure SafeRange (req : UpdateChunkRequest) (size first last : UInt64) : Prop where
  /-- `offset + chunk_size` does not overflow. -/
  sum : req.offset.toNat + req.length.toNat < 2 ^ 64
  /-- `offset + chunk_size - 1` does not underflow. -/
  sumPred : 1 ≤ req.offset.toNat + req.length.toNat
  /-- `size - 1` does not underflow. -/
  sizePred : 1 ≤ size.toNat
  start : first = req.offset
  ordered : first ≤ last
  inside : last < size
  short : last.toNat - first.toNat + 1 ≤ 524288
  /-- What the store sends of a file of that size are at most 512 KiB from the offset on. -/
  bytes : ∀ file error : Bytes, file.length = size.toNat →
    (serve file error first.toNat last.toNat).length ≤ 524288 ∧
      serve file error first.toNat last.toNat <+: file.drop req.offset.toNat

/-- The chunk is not empty, it starts in the file, and its end is a 64-bit number. -/
def UpdateChunkRequest.InFile (req : UpdateChunkRequest) (size : UInt64) : Prop :=
  req.chunkSize ≠ 0 ∧ req.offset < size ∧ req.offset.toNat + req.length.toNat < 2 ^ 64

theorem length_pos_iff : 0 < req.length.toNat ↔ req.chunkSize ≠ 0 := by
  rw [UpdateChunkRequest.toNat_length]
  constructor
  · intro hpos hzero
    rw [hzero] at hpos
    exact absurd hpos (by decide)
  · intro hne
    have hpos : req.chunkSize.toNat ≠ 0 := fun h ↦ hne (UInt32.toNat_inj.mp h)
    omega

theorem safeRange_iff : SafeRange req size req.offset (req.rangeEnd size) ↔ req.InFile size := by
  constructor
  · intro h
    have hlast := UInt64.le_iff_toNat_le.mp h.ordered
    have hin := UInt64.lt_iff_toNat_lt.mp h.inside
    refine ⟨length_pos_iff.mp ?_, UInt64.lt_iff_toNat_lt.mpr (by omega), h.sum⟩
    by_contra hzero
    have hend := req.toNat_rangeEnd size
    have hsum := h.sum
    have hpred := h.sumPred
    omega
  · rintro ⟨hchunk, hoffset, hsum⟩
    have hpos := length_pos_iff.mpr hchunk
    have hlength := req.toNat_length
    have hoff : req.offset.toNat < size.toNat := UInt64.lt_iff_toNat_lt.mp hoffset
    have hend := UpdateChunkRequest.toNat_rangeEnd_of_le hpos (Nat.le_of_lt hsum)
      (Nat.zero_lt_of_lt hoff)
    have hordered : req.offset.toNat ≤ (req.rangeEnd size).toNat := by omega
    refine ⟨hsum, by omega, by omega, rfl, UInt64.le_iff_toNat_le.mpr hordered,
      UInt64.lt_iff_toNat_lt.mpr (by omega), by omega, fun file error hfile ↦ ?_⟩
    rw [serve_eq_slice hordered (by omega), length_slice]
    exact ⟨by omega, slice_prefix _ _ _⟩

/-- A thread about to ask the store for a range asks for one that is as it should be exactly when
the chunk of the request is in the file. -/
theorem chunk_range_safe {file : String} (h : Reachable codec verifyDetached c)
    (hask : c.performs t = some (.request (.getUpdateChunk req), .getRange file first last))
    (hread : entryRead req.platform (past t c.trace) = some entry) :
    SafeRange req entry.size first last ↔ req.InFile entry.size := by
  obtain ⟨k, ht⟩ := performs_iff.mp hask
  obtain ⟨a, entry', hpast, hlisted, rfl, rfl, rfl⟩ := h.request_guard (processCall_chunk_ends req) ht
  have hentry : entryRead req.platform (past t c.trace) = some entry' := by
    rw [hpast, entryRead, List.findSome?_singleton]
    exact hlisted
  obtain rfl := Option.some.inj (hread.symm.trans hentry)
  exact safeRange_iff

namespace Sample

/-- A manifest with one file of `size` bytes for the default platform. -/
def offers (size : UInt64) : Except String ManifestAnswer :=
  .ok ⟨true, "200 OK", .ok ⟨"0.1.2", "", [("linux-x86_64-deb", ⟨"zenth.deb", "", size, ""⟩)]⟩⟩

/-- A client asks for a chunk of a file of `size` bytes, up to the request to the store. -/
def chunkRun (req : UpdateChunkRequest) (size : UInt64) : Moves :=
  [.spawn (.request (.getUpdateChunk req)), .step 0 (.manifest (offers size))]

/-- The range that thread 0 is about to ask for, and the size it has read. -/
def asked (c : State) : Option (UpdateChunkRequest × UInt64 × UInt64 × UInt64) :=
  match c.performs 0 with
  | some (.request (.getUpdateChunk req), .getRange _ first last) =>
    (entryRead req.platform (past 0 c.trace)).map fun entry ↦ (req, entry.size, first, last)
  | _ => none

theorem asks_of_asked (h : asked c = some (req, size, first, last)) :
    ∃ file entry, entry.size = size ∧ entryRead req.platform (past 0 c.trace) = some entry ∧
      c.performs 0 = some (.request (.getUpdateChunk req), .getRange file first last) := by
  unfold asked at h
  split at h
  next hp =>
    obtain ⟨entry, hread, hview⟩ := Option.map_eq_some_iff.mp h
    cases hview
    exact ⟨_, entry, rfl, hread, hp⟩
  · exact nomatch h

end Sample

open Sample in
/-- For an empty chunk of a file of 1 MiB the store is asked for the whole file; for a chunk past
the end of a file of 3 bytes, for a range that ends before it starts. -/
theorem unsafe_ranges :
    (∃ c, final [] (chunkRun ⟨"", 0, 0⟩ 1048576) = some c ∧
      asked c = some (⟨"", 0, 0⟩, 1048576, 0, 1048575) ∧
      ¬ SafeRange ⟨"", 0, 0⟩ 1048576 0 1048575) ∧
    ∃ c, final [] (chunkRun ⟨"", 5, 4⟩ 3) = some c ∧ asked c = some (⟨"", 5, 4⟩, 3, 5, 2) ∧
      ¬ SafeRange ⟨"", 5, 4⟩ 3 5 2 := by
  have hempty : (final [] (chunkRun ⟨"", 0, 0⟩ 1048576)).map asked =
      some (some (⟨"", 0, 0⟩, 1048576, 0, 1048575)) := by decide +kernel
  have hpast : (final [] (chunkRun ⟨"", 5, 4⟩ 3)).map asked =
      some (some (⟨"", 5, 4⟩, 3, 5, 2)) := by decide +kernel
  obtain ⟨c, hc, hasked⟩ := Option.map_eq_some_iff.mp hempty
  obtain ⟨c', hc', hasked'⟩ := Option.map_eq_some_iff.mp hpast
  refine ⟨⟨c, hc, hasked, fun hsafe ↦ ?_⟩, c', hc', hasked', fun hsafe ↦ ?_⟩
  · exact absurd hsafe.short (by decide)
  · exact absurd hsafe.ordered (by decide)

open Sample in
theorem chunk_range_safe_chunkRun : ∃ c, final [] (chunkRun ⟨"", 2, 4⟩ 3) = some c ∧
    SafeRange ⟨"", 2, 4⟩ 3 2 2 := by
  have hrun : (final [] (chunkRun ⟨"", 2, 4⟩ 3)).map asked =
      some (some (⟨"", 2, 4⟩, 3, 2, 2)) := by decide +kernel
  obtain ⟨c, hc, hasked⟩ := Option.map_eq_some_iff.mp hrun
  obtain ⟨file, entry, hsize, hread, hask⟩ := asks_of_asked hasked
  refine ⟨c, hc, ?_⟩
  rw [← hsize]
  refine (chunk_range_safe ⟨0, 0, _, hc⟩ hask hread).mpr ?_
  rw [hsize]
  exact ⟨by decide, by decide, by decide⟩

end ZenthDht
