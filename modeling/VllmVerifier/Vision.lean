import VllmVerifier.Models
import VllmVerifier.Python.Base64

/-!
`vision.py`: the check of the images of a request. What Pillow makes of the
bytes of an image is a parameter.
-/

set_option autoImplicit false

namespace VllmVerifier.Vision

open Python

abbrev Bytes := List Nat

def MIME_FORMATS : Dict Str Str :=
  ⟨[(lit "image/png", lit "PNG"), (lit "image/jpeg", lit "JPEG"), (lit "image/webp", lit "WEBP")],
    by decide⟩

/-- What `Image.open` returns, with the outcome of its `verify()`. -/
structure Opened where
  format : Option Str
  width : Nat
  height : Nat
  verified : Except PyException Unit

/-- What stands before the comma of a data URL. -/
def header (mime : Str) : Str := lit "data:" ++ mime ++ lit ";base64"

/-- The `try` block of the loop. -/
def validateImage (openImage : Bytes → Except PyException Opened) (image : Str) :
    Except PyException Unit :=
  match Str.partition (lit ",") image with
  | none => .error (.valueError "not enough values to unpack (expected 2, got 1)")
  | some (head, encoded) =>
      if head ∉ MIME_FORMATS.keys.map header then .error (.valueError "unsupported data URL")
      else do
        let decoded ← (Base64.b64decode encoded).mapError PyException.valueError
        if 8 * 1024 * 1024 < decoded.length then .error (.valueError "image exceeds 8 MiB")
        else do
          let opened ← openImage decoded
          let format ← getItem MIME_FORMATS (Str.sliceBack head 5 7)
          if opened.format ≠ some format then
            .error (.valueError "MIME type does not match image")
          else if 16000000 < opened.width * opened.height then
            .error (.valueError "image exceeds 16 megapixels")
          else opened.verified

/-- The exceptions that the loop turns into a rejection. -/
def imageCatches (raised : PyException) : Bool :=
  raised.isValueError || raised == .other "OSError" || raised == .other "UnidentifiedImageError" ||
    raised == .other "DecompressionBombError" || raised == .other "DecompressionBombWarning"

def invalidImage : ServiceError :=
  ⟨422, "invalid_image",
    "Use valid PNG, JPEG or WebP base64 data URLs, at most 8 MiB / 16 MP per image"⟩

def validateImages (openImage : Bytes → Except PyException Opened) :
    List Str → Except PyException Unit
  | [] => .ok ()
  | image :: rest =>
      match validateImage openImage image with
      | .ok _ => validateImages openImage rest
      | .error raised =>
          if imageCatches raised then .error (.serviceError invalidImage) else .error raised

/-- The data URL that `examples/vision.py` makes of a file. -/
def dataUrl (mime : Str) (bytes : Bytes) : Str :=
  lit "data:" ++ mime ++ lit ";base64," ++ Base64.b64encode bytes

end VllmVerifier.Vision
