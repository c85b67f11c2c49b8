import Akroasis.Radio.Transfer

/-!
# Akroasis.Radio.Programming

`akroasis radio program`: validate a plan, encode it, upload the image, download it again
and compare (`program.rs` and the session of `serial_hardware.rs`).

The plan, the target radio and the answer to the prompt are inputs of `run`: they come
from a file, from the detection of radios and from the user.  What is printed is left out.

The image is encoded into an erased buffer of 0x2000 bytes, whatever the radio holds and
however large its memory is.  `verification_exact_iff` says when the comparison at the end
succeeds on a radio that works, `programming_frame_iff` when the upload leaves alone what
is in neither table.
-/

namespace Akroasis.Radio

open Driver

/-! ## Errors -/

def BcdError.display : BcdError → String
  | .invalidBcd byte => "invalid BCD nibble in byte 0x" ++ hex 2 byte.toNat
  | .notAligned freqHz => "frequency " ++ toString freqHz ++ " Hz is not a multiple of 10"

def CodecError.display : CodecError → String
  | .bcdDecode index source =>
      "BCD decode error for channel " ++ toString index ++ ": " ++ source.display
  | .bcdEncode index source =>
      "BCD encode error for channel " ++ toString index ++ ": " ++ source.display

/-- The errors of `radio program` once the plan is loaded and the session open. -/
inductive RadioError
  | serialTimeout (port : String)
  | validationFailed (message : String)
  | plan (message : String)
  | writeAborted
  | verificationFailed (message : String)
  deriving DecidableEq, Repr

/-! ## The command -/

/-- The variants the command line knows (`akroasis::radio::RadioVariant`). -/
inductive CliVariant
  | uv5r
  | bfF8hp
  | uv5rmPlus
  deriving DecidableEq, Repr

def CliVariant.constraints : CliVariant → RadioConstraints
  | .uv5r | .uv5rmPlus => baofengUv5rConstraints
  | .bfF8hp => baofengF8hpConstraints

namespace Session

def imageSize : Nat := 0x2000

def encodeChannels (channels : List Channel) : Except RadioError MemoryImage :=
  (encodeAllChannels ⟨channels⟩ (MemoryImage.new imageSize)).mapError fun e => .plan e.display

variable {σ : Type} (port : SerialPort σ) (config : VariantConfig)

def uploadImage (image : MemoryImage) : Driver RadioError σ PUnit :=
  (Radio.uploadImage port config image).mapErr fun e => .verificationFailed e.display

def downloadImage : Driver RadioError σ MemoryImage :=
  (Radio.downloadImage port config).mapErr fun e =>
    .serialTimeout ("download failed: " ++ e.display)

end Session

/-- `validate_plan` reports no error. -/
def Validates (constraints : RadioConstraints) (plan : FrequencyPlan) : Prop :=
  (validatePlan constraints plan).filter ValidationIssue.isError = []

instance {constraints : RadioConstraints} {plan : FrequencyPlan} :
    Decidable (Validates constraints plan) :=
  inferInstanceAs (Decidable ((validatePlan constraints plan).filter ValidationIssue.isError = []))

/-- What a failed comparison reports. -/
def mismatch : RadioError := .verificationFailed "readback does not match uploaded image"

/-- Read back and compare. -/
def verify {σ : Type} (port : SerialPort σ) (config : VariantConfig) (image : MemoryImage) :
    Driver RadioError σ PUnit := do
  let readback ← Session.downloadImage port config
  if readback ≠ image then throw mismatch else pure ⟨⟩

def run {σ : Type} (port : SerialPort σ) (target : CliVariant) (config : VariantConfig)
    (plan : FrequencyPlan) (confirmed : Bool) : Driver RadioError σ PUnit :=
  let errors := (validatePlan target.constraints plan).filter ValidationIssue.isError
  if errors ≠ [] then
    throw (.validationFailed (toString errors.length ++ " validation errors"))
  else if !confirmed then throw .writeAborted
  else do
    let image ← ofResult (Session.encodeChannels plan.channels)
    Session.uploadImage port config image
    verify port config image

variable {config : VariantConfig} {plan : FrequencyPlan} {image : MemoryImage} {d d' : Device}
  {a : Nat} {target : CliVariant}

/-! ## The steps of a run -/

theorem exec_run_of_uploaded (hvalid : Validates target.constraints plan)
    (hencode : Session.encodeChannels plan.channels = .ok image)
    (hupload : exec (Session.uploadImage Device.line config image) d = (.ok ⟨⟩, d')) :
    exec (run Device.line target config plan true) d =
      exec (verify Device.line config image) d' := by
  have himage : exec (ofResult (Session.encodeChannels plan.channels)) d = (.ok image, d) := by
    rw [exec_ofResult, hencode]
  have hnone : (validatePlan target.constraints plan).filter ValidationIssue.isError = [] := hvalid
  rw [run, if_neg (not_not_intro hnone), if_neg (by decide), exec_bind_ok himage,
    exec_bind_ok hupload]

theorem exec_verify (hidle : d.pending = []) :
    exec (verify Device.line config image) d =
      (if downloaded config d.memory ≠ image then .error mismatch else .ok ⟨⟩, d) := by
  have hread : exec (Session.downloadImage Device.line config) d =
      (.ok (downloaded config d.memory), d) := exec_mapErr_eq_ok.mpr (exec_downloadImage hidle)
  rw [verify, exec_bind_ok hread]
  split <;> rfl

/-- The image is erased outside the two tables. -/
theorem encoded_outside (hencode : Session.encodeChannels plan.channels = .ok image) :
    image.length = 0x2000 ∧ ∀ a < 0x2000, ¬ InTables a → image[a]? = some 0xFF := by
  have hnew : (MemoryImage.new Session.imageSize).length = 0x2000 := List.length_replicate ..
  cases hcodec : encodeAllChannels ⟨plan.channels⟩ (MemoryImage.new Session.imageSize) with
  | error e => simp [Session.encodeChannels, hcodec] at hencode
  | ok encoded =>
      obtain rfl : encoded = image := by
        simpa [Session.encodeChannels, hcodec] using hencode
      have hkept := encodeAllChannels_preserves (by rw [hnew]; decide) hcodec
      refine ⟨hkept.length.trans hnew, fun a ha hout => ?_⟩
      rw [hkept.outside a hout, MemoryImage.new, List.getElem?_replicate, if_pos (by exact ha)]

theorem uploaded_of_inTables (h : InTables a) : Uploaded config a := by
  rw [inTables_iff] at h
  have hmain : ∀ range ∈ uploadRangesMain, range ∈ uploadRanges config := by
    intro range hrange
    rw [uploadRanges]
    split
    · exact List.mem_append_left _ hrange
    · exact hrange
  obtain hlow | hname := h
  · exact ⟨(0x0000, 0x0CF0), hmain _ (by decide), Nat.zero_le a, hlow.trans (by decide)⟩
  · exact ⟨(0x0E00, 0x1800), hmain _ (by decide), le_trans (by decide) hname.1, hname.2⟩

theorem downloaded_of_inTables (h : InTables a) : Downloaded config a := by
  rw [inTables_iff] at h
  have hend : mainBlockEnd.toNat = 0x1800 := rfl
  exact .inl ⟨Nat.zero_le a, by omega⟩

/-- Every range that is written lies in a block that is read. -/
theorem uploadRanges_read : ∀ range ∈ uploadRanges config,
    range.2.toNat ≤ mainBlockEnd.toNat ∨ (config.hasAuxBlock = true ∧
      auxBlockStart.toNat ≤ range.1.toNat ∧ range.2.toNat ≤ auxBlockEnd.toNat) := by
  cases haux : config.hasAuxBlock <;>
    simp [uploadRanges, uploadRangesMain, uploadRangesAux, mainBlockEnd, auxBlockStart, auxBlockEnd,
      haux]

theorem downloaded_of_uploaded (h : Uploaded config a) : Downloaded config a := by
  obtain ⟨range, hrange, hlow, hhigh⟩ := h
  obtain hmain | ⟨haux, hstart, hend⟩ := uploadRanges_read range hrange
  · exact .inl ⟨Nat.zero_le a, hhigh.trans_le hmain⟩
  · exact .inr ⟨haux, hstart.trans hlow, hhigh.trans_le hend⟩

theorem lt_of_uploaded (h : Uploaded config a) : a < 0x2000 := by
  obtain ⟨range, hrange, _, hlt⟩ := h
  have hsize : requiredSize config ≤ 0x2000 := by
    cases haux : config.hasAuxBlock <;> simp only [requiredSize, uploadRanges, haux] <;> decide
  exact hlt.trans_le ((uploadRanges_spec range hrange).2.trans hsize)

/-! ## A sample plan -/

/-- The simplex calling channel. -/
def sampleChannel : Channel :=
  ⟨0, ['C', 'A', 'L', 'L'], 146520000, none, .none, .none, .high, .wide, .included, false⟩

def samplePlan : FrequencyPlan := ⟨[sampleChannel]⟩

theorem samplePlan_validates (target : CliVariant) : Validates target.constraints samplePlan := by
  cases target <;> decide

theorem samplePlan_encodes : ∃ image, Session.encodeChannels samplePlan.channels = .ok image :=
  ⟨_, rfl⟩

/-- Encoding the sample plan and uploading it to a radio that stores and acknowledges every
block succeeds. -/
theorem samplePlan_uploads (variant : RadioVariant) (memory : Memory) : ∃ image memory',
    Session.encodeChannels samplePlan.channels = .ok image ∧
      exec (Session.uploadImage Device.line variant.config image) (.opened memory []) =
        (.ok ⟨⟩, .opened memory' []) := by
  obtain ⟨image, hencode⟩ := samplePlan_encodes
  have hsize : requiredSize variant.config ≤ image.length := by
    rw [(encoded_outside hencode).1]
    cases variant <;> decide
  obtain ⟨memory', hupload⟩ := exec_uploadImage_of_answered memory hsize
  exact ⟨image, memory', hencode, exec_mapErr_eq_ok.mpr hupload⟩

theorem opened_honest (memory : Memory) : (Device.opened memory []).Honest := by
  simp [Device.Honest, Device.opened]

/-! ## What an upload overwrites -/

/-- Outside the two tables an upload writes `0xFF`. -/
theorem erased_of_uploaded {after : Device} (hidle : d.pending = []) (hhonest : d.Honest)
    (hencode : Session.encodeChannels plan.channels = .ok image)
    (hupload : exec (Session.uploadImage Device.line config image) d = (.ok ⟨⟩, after))
    (hout : ¬ InTables a) (hup : Uploaded config a) : after.memory a = 0xFF := by
  have hblank := (encoded_outside hencode).2 a (lt_of_uploaded hup) hout
  rw [uploadImage_memory hidle hhonest (exec_mapErr_eq_ok.mp hupload) a, if_pos hup,
    List.getD_eq_getElem?_getD, hblank, Option.getD_some]

/-- **When programming leaves the rest of the memory alone.**  On an honest radio, once the
encode and the upload have succeeded, every byte outside the two tables is as before exactly
if those the upload writes were erased before. -/
theorem programming_frame_iff (variant : RadioVariant) (plan : FrequencyPlan) (memory : Memory)
    (treatments : List Treatment) (image : MemoryImage) (after : Device)
    (hhonest : (Device.opened memory treatments).Honest)
    (hencode : Session.encodeChannels plan.channels = .ok image)
    (hupload : exec (Session.uploadImage Device.line variant.config image)
      (.opened memory treatments) = (.ok ⟨⟩, after)) :
    (∀ a, ¬ InTables a → after.memory a = memory a) ↔
      ∀ a, ¬ InTables a → Uploaded variant.config a → memory a = 0xFF := by
  have hwritten (a : Nat) (hout : ¬ InTables a) (hup : Uploaded variant.config a) :
      after.memory a = 0xFF := erased_of_uploaded rfl hhonest hencode hupload hout hup
  constructor
  · intro hsame a hout hup
    rw [← hsame a hout, hwritten a hout hup]
  · intro hblanked a hout
    by_cases hup : Uploaded variant.config a
    · rw [hwritten a hout hup, hblanked a hout hup]
    · rw [uploadImage_memory rfl hhonest (exec_mapErr_eq_ok.mp hupload) a, if_neg hup]
      rfl

/-- A UV-5R whose memory is erased keeps it so. -/
theorem programming_frame_erased : ∃ image after,
    Session.encodeChannels samplePlan.channels = .ok image ∧
      exec (Session.uploadImage Device.line uv5rConfig image) (.opened (fun _ => 0xFF) []) =
        (.ok ⟨⟩, after) ∧
      ∀ a, ¬ InTables a → after.memory a = 0xFF := by
  obtain ⟨image, memory', hencode, hupload⟩ := samplePlan_uploads .uv5r fun _ => 0xFF
  have hframe := programming_frame_iff .uv5r samplePlan (fun _ => 0xFF) [] image _
    (opened_honest _) hencode hupload
  exact ⟨image, _, hencode, hupload, hframe.mpr fun _ _ _ => rfl⟩

/-- What a UV-5R held at 0x0E00, in neither table, is overwritten with `0xFF`. -/
theorem byte_outside_tables_erased : ∃ image after,
    Session.encodeChannels samplePlan.channels = .ok image ∧
      exec (Session.uploadImage Device.line uv5rConfig image) (.opened (fun _ => 0x05) []) =
        (.ok ⟨⟩, after) ∧
      ¬ InTables 0x0E00 ∧ after.memory 0x0E00 = 0xFF ∧
      (Device.opened (fun _ => 0x05) []).memory 0x0E00 = 0x05 := by
  obtain ⟨image, memory', hencode, hupload⟩ := samplePlan_uploads .uv5r fun _ => 0x05
  exact ⟨image, _, hencode, hupload, by decide,
    erased_of_uploaded rfl (opened_honest _) hencode hupload (by decide) (by decide), rfl⟩

/-! ## What the comparison accepts -/

/-- The radio has an auxiliary block, and what is read back without having been written is
erased. -/
def Comparable (config : VariantConfig) (memory : Memory) : Prop :=
  config.hasAuxBlock = true ∧
    ∀ a, Downloaded config a → ¬ Uploaded config a → memory a = 0xFF

theorem downloaded_eq_iff (hencode : Session.encodeChannels plan.channels = .ok image)
    {memory memory' : Memory}
    (hafter : ∀ a, memory' a = if Uploaded config a then image.getD a 0 else memory a) :
    downloaded config memory' = image ↔ Comparable config memory := by
  obtain ⟨hlen, hblank⟩ := encoded_outside hencode
  constructor
  · intro heq
    have haux : config.hasAuxBlock = true := by
      by_contra hnone
      have hshort : (downloaded config memory').length = 0x1800 := by
        rw [length_downloaded, if_neg hnone]
      rw [heq, hlen] at hshort
      simp at hshort
    refine ⟨haux, fun a hread hkept => ?_⟩
    have ha : a < 0x2000 := by
      obtain ⟨_, hlt⟩ | ⟨_, _, hlt⟩ := hread
      · exact hlt.trans (by decide)
      · exact hlt
    have hbyte : (downloaded config memory')[a]? = _ :=
      getElem?_downloaded memory' (by rw [heq, hlen]; exact ha)
    rw [heq, hblank a ha fun hin => hkept (uploaded_of_inTables hin), if_pos hread, hafter a,
      if_neg hkept] at hbyte
    exact (Option.some.inj hbyte).symm
  · rintro ⟨haux, hblanked⟩
    have hsize : (downloaded config memory').length = 0x2000 := by
      rw [length_downloaded, if_pos haux]
    refine List.ext_getElem? fun a => ?_
    by_cases ha : a < 0x2000
    · rw [getElem?_downloaded memory' (by rw [hsize]; exact ha)]
      by_cases hup : Uploaded config a
      · rw [if_pos (downloaded_of_uploaded hup), hafter a, if_pos hup, List.getD_eq_getElem?_getD,
          List.getElem?_eq_getElem (by omega), Option.getD_some]
      · rw [hblank a ha fun hin => hup (uploaded_of_inTables hin), hafter a, if_neg hup]
        by_cases hread : Downloaded config a
        · rw [if_pos hread, hblanked a hread hup]
        · rw [if_neg hread]
    · rw [List.getElem?_eq_none (by omega), List.getElem?_eq_none (by omega)]

theorem exec_run_eq {memory : Memory} {treatments : List Treatment}
    {after : Device} (hvalid : Validates target.constraints plan)
    (hencode : Session.encodeChannels plan.channels = .ok image)
    (hupload : exec (Session.uploadImage Device.line config image) (.opened memory treatments) =
      (.ok ⟨⟩, after)) :
    exec (run Device.line target config plan true) (.opened memory treatments) =
      (if downloaded config after.memory ≠ image then .error mismatch else .ok ⟨⟩, after) := by
  have hidle := (transferred_of_uploadImage rfl (exec_mapErr_eq_ok.mp hupload)).2.idle
  rw [exec_run_of_uploaded hvalid hencode hupload, exec_verify hidle]

theorem exec_run_of_not_comparable {memory : Memory}
    {treatments : List Treatment} {after : Device} (hvalid : Validates target.constraints plan)
    (hencode : Session.encodeChannels plan.channels = .ok image)
    (hupload : exec (Session.uploadImage Device.line config image) (.opened memory treatments) =
      (.ok ⟨⟩, after))
    (hhonest : (Device.opened memory treatments).Honest) (h : ¬ Comparable config memory) :
    exec (run Device.line target config plan true) (.opened memory treatments) =
      (.error mismatch, after) := by
  have hafter := uploadImage_memory rfl hhonest (exec_mapErr_eq_ok.mp hupload)
  rw [exec_run_eq hvalid hencode hupload,
    if_pos fun heq => h ((downloaded_eq_iff hencode hafter).mp heq)]

/-- **When verification is exact.**  After an upload that returned `Ok`, the comparison succeeds
on an honest radio exactly if the radio has an auxiliary block and everything read back
without having been written was erased before.  On any radio it fails if a byte of the
channel or the name table differs from the image. -/
theorem verification_exact_iff (variant : RadioVariant) (target : CliVariant) (plan : FrequencyPlan)
    (memory : Memory) (treatments : List Treatment) (image : MemoryImage) (after : Device)
    (hvalid : Validates target.constraints plan)
    (hencode : Session.encodeChannels plan.channels = .ok image)
    (hupload : exec (Session.uploadImage Device.line variant.config image)
      (.opened memory treatments) = (.ok ⟨⟩, after)) :
    ((Device.opened memory treatments).Honest →
      ((exec (run Device.line target variant.config plan true) (.opened memory treatments)).1 =
        .ok ⟨⟩ ↔
        Comparable variant.config memory)) ∧
    (∀ a, InTables a → image[a]? ≠ some (after.memory a) →
      (exec (run Device.line target variant.config plan true) (.opened memory treatments)).1 =
        .error mismatch) := by
  rw [exec_run_eq hvalid hencode hupload]
  constructor
  · intro hhonest
    have hcompared : downloaded variant.config after.memory = image ↔
        Comparable variant.config memory :=
      downloaded_eq_iff hencode (uploadImage_memory rfl hhonest (exec_mapErr_eq_ok.mp hupload))
    rw [← hcompared]
    by_cases heq : downloaded variant.config after.memory = image <;> simp [heq]
  · intro a hin hdiffers
    -- both tables are read back, whatever the variant
    have hread : Downloaded variant.config a := downloaded_of_inTables hin
    refine if_pos fun heq => hdiffers ?_
    have ha : a < (downloaded variant.config after.memory).length := by
      rw [inTables_iff] at hin
      rw [heq, (encoded_outside hencode).1]
      omega
    have hbyte := getElem?_downloaded after.memory ha
    rwa [heq, if_pos hread] at hbyte

/-- A BF-F8HP with an erased memory: the comparison succeeds. -/
theorem verification_exact_erased : ∃ image after,
    Session.encodeChannels samplePlan.channels = .ok image ∧
      exec (Session.uploadImage Device.line bfF8hpConfig image) (.opened (fun _ => 0xFF) []) =
        (.ok ⟨⟩, after) ∧
      (exec (run Device.line .bfF8hp bfF8hpConfig samplePlan true) (.opened (fun _ => 0xFF) [])).1 =
        .ok ⟨⟩ := by
  obtain ⟨image, memory', hencode, hupload⟩ := samplePlan_uploads .bfF8hp fun _ => 0xFF
  have hexact := verification_exact_iff .bfF8hp .bfF8hp samplePlan (fun _ => 0xFF) [] image _
    (samplePlan_validates _) hencode hupload
  exact ⟨image, _, hencode, hupload, (hexact.1 (opened_honest _)).mpr ⟨rfl, fun _ _ _ => rfl⟩⟩

/-- A UV-5R whose memory is erased, and a BF-F8HP with calibration data: both store and answer
everything, and the comparison fails. -/
theorem working_radios_fail_verification :
    (∃ image after, Session.encodeChannels samplePlan.channels = .ok image ∧
      exec (Session.uploadImage Device.line uv5rConfig image) (.opened (fun _ => 0xFF) []) =
        (.ok ⟨⟩, after) ∧
      exec (run Device.line .uv5r uv5rConfig samplePlan true) (.opened (fun _ => 0xFF) []) =
        (.error mismatch, after)) ∧
    (∃ image after, Session.encodeChannels samplePlan.channels = .ok image ∧
      exec (Session.uploadImage Device.line bfF8hpConfig image) (.opened (fun _ => 0x20) []) =
        (.ok ⟨⟩, after) ∧
      exec (run Device.line .bfF8hp bfF8hpConfig samplePlan true) (.opened (fun _ => 0x20) []) =
        (.error mismatch, after)) := by
  constructor
  · obtain ⟨image, memory', hencode, hupload⟩ := samplePlan_uploads .uv5r fun _ => 0xFF
    exact ⟨image, _, hencode, hupload, exec_run_of_not_comparable (samplePlan_validates _) hencode
      hupload (opened_honest _) fun h => Bool.false_ne_true h.1⟩
  · obtain ⟨image, memory', hencode, hupload⟩ := samplePlan_uploads .bfF8hp fun _ => 0x20
    have hkept : ¬ Comparable bfF8hpConfig fun _ => 0x20 := fun h =>
      absurd (h.2 0x1F00 (by decide) (by decide)) (by decide)
    exact ⟨image, _, hencode, hupload, exec_run_of_not_comparable (samplePlan_validates _) hencode
      hupload (opened_honest _) hkept⟩

end Akroasis.Radio
