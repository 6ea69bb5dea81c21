import ZenthDht.Model.Server

/-!
# Client updates: GET_UPDATE_MANIFEST and GET_UPDATE_CHUNK

`update_manifest.rs` and `update_chunk.rs`.  Integer arithmetic is that of a release build,
which wraps.
-/

namespace ZenthDht

open Conc

/-- `platforms.get(&platform)`. -/
def Manifest.entry (m : Manifest) (platform : String) : Option PlatformEntry :=
  m.platforms.lookup platform

def getUpdateManifest (codec : Codec) (req : UpdateManifestRequest) :
    Handler (Except String UpdateManifestResponse) := do
  let platform :=
    if req.platform ≠ "" then req.platform
    else if req.currentVersion ≠ "" then req.currentVersion
    else "linux-x86_64-deb"
  match ← Program.call Op.getManifest with
  | .error e => pure (.error s!"Manifest inaccessible (RustFS) : {e}")
  | .ok resp =>
  if !resp.isSuccess then
    pure (.error s!"RustFS a retourné HTTP {resp.status} pour manifest.json") else
  match resp.json with
  | .error e => pure (.error s!"Manifest JSON invalide : {e}")
  | .ok manifest =>
  match manifest.entry platform with
  | none => pure (.error s!"Plateforme '{platform}' absente du manifest")
  | some entry =>
  match codec.decodeBase64 entry.signature with
  | .error e => pure (.error s!"Signature base64 invalide : {e}")
  | .ok signature =>
    pure (.ok ⟨manifest.version, entry.sha256, entry.size, signature, manifest.notes, platform⟩)

/-- `MAX_CHUNK_SIZE`. -/
def maxChunkSize : UInt32 := 512 * 1024

/-- The last byte of the range a chunk request asks the store for. -/
def UpdateChunkRequest.rangeEnd (req : UpdateChunkRequest) (total : UInt64) : UInt64 :=
  min (req.offset + (min req.chunkSize maxChunkSize).toUInt64 - 1) (total - 1)

def getUpdateChunk (req : UpdateChunkRequest) : Handler (Except String UpdateChunkResponse) := do
  let platform := if req.currentVersion ≠ "" then req.currentVersion else "linux-x86_64-deb"
  match ← Program.call Op.getManifest with
  | .error e => pure (.error s!"Manifest inaccessible : {e}")
  | .ok resp =>
  match resp.json with
  | .error e => pure (.error s!"Manifest JSON invalide : {e}")
  | .ok manifest =>
  match manifest.entry platform with
  | none => pure (.error s!"Plateforme '{platform}' absente du manifest")
  | some entry =>
  match ← Program.call (Op.getRange entry.file req.offset (req.rangeEnd entry.size)) with
  | .error e => pure (.error s!"Téléchargement chunk échoué : {e}")
  | .ok (.error e) => pure (.error s!"Lecture bytes échouée : {e}")
  | .ok (.ok data) => pure (.ok {
      offset := req.offset
      data
      isLast := decide (entry.size ≤ req.offset + UInt64.ofNat data.length)
      total := entry.size })

end ZenthDht
