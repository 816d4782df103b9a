import VllmVerifier.Vision

/-!
The images of a request are accepted exactly when each of them is inline: a data
URL of a known type, of digits and padding only, whose bytes Pillow accepts.
-/

set_option autoImplicit false

namespace VllmVerifier.Vision

open Python

variable {openImage : Bytes → Except PyException Opened}

/-- Pillow takes the bytes for a whole image of this format, small enough. -/
def Accepts (openImage : Bytes → Except PyException Opened) (format : Str) (bytes : Bytes) : Prop :=
  bytes.length ≤ 8 * 1024 * 1024 ∧ ∃ opened, openImage bytes = .ok opened ∧
    opened.format = some format ∧ opened.width * opened.height ≤ 16000000 ∧ opened.verified = .ok ()

/-- The image travels in the request itself: nothing has to be fetched for it. -/
def Inline (openImage : Bytes → Except PyException Opened) (image : Str) : Prop :=
  ∃ mime format payload data pads bytes, (mime, format) ∈ MIME_FORMATS.entries ∧
    image = lit "data:" ++ mime ++ lit ";base64," ++ payload ∧
    Base64.Shape payload data pads ∧ Base64.b64decode payload = .ok bytes ∧
    Accepts openImage format bytes

theorem header_split (mime payload : Str) :
    lit "data:" ++ mime ++ lit ";base64," ++ payload = header mime ++ lit "," ++ payload := by
  have joined : lit ";base64," = lit ";base64" ++ lit "," := by decide
  rw [header, joined]
  simp only [List.append_assoc]

/-- The header names its type, and holds no comma of its own. -/
theorem header_known {mime format : Str} (known : (mime, format) ∈ MIME_FORMATS.entries) :
    Str.contains (lit ",") (header mime) = false ∧ header mime ∈ MIME_FORMATS.keys.map header ∧
      getItem MIME_FORMATS (Str.sliceBack (header mime) 5 7) = .ok format := by
  have all : ∀ entry ∈ MIME_FORMATS.entries, Str.contains (lit ",") (header entry.1) = false ∧
      header entry.1 ∈ MIME_FORMATS.keys.map header ∧
        getItem MIME_FORMATS (Str.sliceBack (header entry.1) 5 7) = .ok entry.2 := by
    decide
  exact all (mime, format) known

theorem partition_header {mime format : Str} (known : (mime, format) ∈ MIME_FORMATS.entries)
    (payload : Str) : Str.partition (lit ",")
      (lit "data:" ++ mime ++ lit ";base64," ++ payload) = some (header mime, payload) := by
  rw [header_split]
  exact Str.partition_append (by simp) (header_known known).1 payload

theorem listed_header {head : Str} (listed : head ∈ MIME_FORMATS.keys.map header) :
    ∃ mime format, (mime, format) ∈ MIME_FORMATS.entries ∧ header mime = head := by
  obtain ⟨mime, named, same⟩ := List.mem_map.mp listed
  obtain ⟨⟨_, format⟩, known, rfl⟩ := List.mem_map.mp named
  exact ⟨_, format, known, same⟩

theorem decoded_ok {payload : Str} {bytes : Bytes}
    (decoded : (Base64.b64decode payload).mapError PyException.valueError = .ok bytes) :
    Base64.b64decode payload = .ok bytes := by
  cases source : Base64.b64decode payload with
  | ok other =>
      rw [source] at decoded
      cases decoded
      rfl
  | error message =>
      rw [source] at decoded
      cases decoded

theorem decoded_error {payload : Str} {raised : PyException}
    (decoded : (Base64.b64decode payload).mapError PyException.valueError = .error raised) :
    imageCatches raised = true := by
  cases source : Base64.b64decode payload with
  | ok bytes =>
      rw [source] at decoded
      cases decoded
  | error message =>
      rw [source] at decoded
      cases decoded
      rfl

/-- The checks on the bytes of an image with a known header. -/
theorem examined_iff {mime format : Str} {bytes : Bytes}
    (known : (mime, format) ∈ MIME_FORMATS.entries) :
    ((if 8 * 1024 * 1024 < bytes.length then .error (.valueError "image exceeds 8 MiB")
      else do
        let opened ← openImage bytes
        let format ← getItem MIME_FORMATS (Str.sliceBack (header mime) 5 7)
        if opened.format ≠ some format then .error (.valueError "MIME type does not match image")
        else if 16000000 < opened.width * opened.height then
          .error (.valueError "image exceeds 16 megapixels")
        else opened.verified) : Except PyException Unit) = .ok () ↔
      Accepts openImage format bytes := by
  rw [(header_known known).2.2]
  constructor
  · intro accepted
    split_ifs at accepted with large
    obtain ⟨opened, found, accepted⟩ := except_bind_ok accepted
    rw [except_ok_bind] at accepted
    split_ifs at accepted with other wide
    exact ⟨not_lt.mp large, opened, found, not_not.mp other, not_lt.mp wide, accepted⟩
  · intro given
    obtain ⟨small, opened, found, same, narrow, verified⟩ := given
    rw [if_neg (not_lt.mpr small), found, except_ok_bind, except_ok_bind, if_neg (not_not.mpr same),
      if_neg (not_lt.mpr narrow), verified]

theorem validateImage_ok_iff {image : Str} :
    validateImage openImage image = .ok () ↔ Inline openImage image := by
  unfold validateImage
  constructor
  · intro accepted
    split at accepted
    · cases accepted
    · rename_i head encoded parted
      by_cases listed : head ∈ MIME_FORMATS.keys.map header
      case neg =>
        rw [if_pos listed] at accepted
        cases accepted
      rw [if_neg (not_not.mpr listed)] at accepted
      obtain ⟨mime, format, known, rfl⟩ := listed_header listed
      obtain ⟨bytes, decoded, accepted⟩ := except_bind_ok accepted
      have read := decoded_ok decoded
      obtain ⟨data, pads, shape⟩ := (Base64.b64decode_accepts encoded).mp ⟨bytes, read⟩
      refine ⟨_, format, encoded, data, pads, bytes, known, ?_, shape, read,
        (examined_iff known).mp accepted⟩
      rw [header_split]
      exact Str.partition_some parted
  · intro given
    obtain ⟨mime, format, payload, data, pads, bytes, known, rfl, _, read, accepts⟩ := given
    rw [partition_header known]
    dsimp only
    rw [if_neg (not_not.mpr (header_known known).2.1), read]
    exact (examined_iff known).mpr accepts

theorem validateImages_ok_iff {images : List Str} :
    validateImages openImage images = .ok () ↔ ∀ image ∈ images, Inline openImage image := by
  induction images with
  | nil => simp [validateImages]
  | cons image rest ih =>
      rw [validateImages, List.forall_mem_cons, ← validateImage_ok_iff, ← ih]
      cases checked : validateImage openImage image with
      | ok => simp
      | error raised =>
          simp only [reduceCtorEq, false_and, iff_false]
          split <;> simp

/-- Pillow raises this on the bytes of some image, or when it verifies them. -/
def PillowRaises (openImage : Bytes → Except PyException Opened) (raised : PyException) : Prop :=
  ∃ bytes, openImage bytes = .error raised ∨
    ∃ opened, openImage bytes = .ok opened ∧ opened.verified = .error raised

theorem validateImage_raises {image : Str} {raised : PyException}
    (failed : validateImage openImage image = .error raised) :
    imageCatches raised = true ∨ PillowRaises openImage raised := by
  unfold validateImage at failed
  split at failed
  · cases failed
    exact .inl rfl
  · rename_i head encoded parted
    by_cases listed : head ∈ MIME_FORMATS.keys.map header
    case neg =>
      rw [if_pos listed] at failed
      cases failed
      exact .inl rfl
    rw [if_neg (not_not.mpr listed)] at failed
    obtain ⟨mime, format, known, rfl⟩ := listed_header listed
    rcases except_bind_error failed with decoding | ⟨bytes, decoded, failed⟩
    · exact .inl (decoded_error decoding)
    split_ifs at failed with large
    · cases failed
      exact .inl rfl
    rcases except_bind_error failed with opening | ⟨opened, found, failed⟩
    · exact .inr ⟨bytes, .inl opening⟩
    rw [(header_known known).2.2, except_ok_bind] at failed
    by_cases same : opened.format = some format
    case neg =>
      rw [if_pos same] at failed
      cases failed
      exact .inl rfl
    rw [if_neg (not_not.mpr same)] at failed
    split_ifs at failed with wide
    · cases failed
      exact .inl rfl
    · exact .inr ⟨bytes, .inr ⟨opened, found, failed⟩⟩

theorem validateImages_raises {images : List Str} {raised : PyException}
    (failed : validateImages openImage images = .error raised) :
    raised = .serviceError invalidImage ∨
      (imageCatches raised = false ∧ PillowRaises openImage raised) := by
  induction images with
  | nil => cases failed
  | cons image rest ih =>
      rw [validateImages] at failed
      cases checked : validateImage openImage image with
      | ok =>
          rw [checked] at failed
          exact ih failed
      | error error =>
          simp only [checked] at failed
          split_ifs at failed with caught
          · cases failed
            exact .inl rfl
          · cases failed
            have escaped := Bool.eq_false_iff.mpr caught
            exact .inr ⟨escaped, (validateImage_raises checked).resolve_left caught⟩

theorem dataUrl_inline {mime format : Str} {bytes : Bytes}
    (known : (mime, format) ∈ MIME_FORMATS.entries) (small : ∀ byte ∈ bytes, byte < 256)
    (accepts : Accepts openImage format bytes) : Inline openImage (dataUrl mime bytes) := by
  have decoded := Base64.b64decode_encode small
  obtain ⟨data, pads, shape⟩ := (Base64.b64decode_accepts _).mp ⟨bytes, decoded⟩
  exact ⟨mime, format, _, data, pads, bytes, known, rfl, shape, decoded, accepts⟩

/-- Images are accepted exactly when all of them are inline, and rejected with one
error unless Pillow raises something unforeseen. Whatever Pillow accepts in a known
type is accepted when it comes as the data URL of its bytes. -/
theorem images_inline (openImage : Bytes → Except PyException Opened) (images : List Str) :
    (validateImages openImage images = .ok () ↔ ∀ image ∈ images, Inline openImage image) ∧
    (∀ raised, validateImages openImage images = .error raised →
      raised = .serviceError invalidImage ∨
        (imageCatches raised = false ∧ PillowRaises openImage raised)) ∧
    ∀ mime format bytes, (mime, format) ∈ MIME_FORMATS.entries → (∀ byte ∈ bytes, byte < 256) →
      Accepts openImage format bytes → validateImages openImage [dataUrl mime bytes] = .ok () := by
  refine ⟨validateImages_ok_iff, fun raised => validateImages_raises, ?_⟩
  intro mime format bytes known small accepts
  rw [validateImages_ok_iff, List.forall_mem_singleton]
  exact dataUrl_inline known small accepts

end VllmVerifier.Vision
