import VllmVerifier.Decision.Runtime
import VllmVerifier.Middleware

/-!
`cli.py` with the part of `config.py` that it and the boundary read: which settings
a server is started with, if it is. The values of the environment are taken as
pydantic has parsed them, its defaults filled in.
-/

set_option autoImplicit false

namespace VllmVerifier.Cli

open Python Middleware

inductive Runtime where
  | http
  | mlx
  | decision
deriving DecidableEq

def Runtime.named? (name : Str) : Option Runtime :=
  if name = lit "http" then some .http
  else if name = lit "mlx" then some .mlx
  else if name = lit "decision" then some .decision
  else none

structure Environment where
  runtime : Runtime
  apiKey : Option Str
  model : Str
  host : Str
  port : Int
  maxRequests : Int
  maxBodyBytes : Int

/-- The default of the field `model`. -/
def servedModel : Str := lit "google/diffusiongemma-26B-A4B-it"

/-- The fields with their defaults. -/
def Environment.unset : Environment where
  runtime := .http
  apiKey := none
  model := servedModel
  host := lit "127.0.0.1"
  port := 8080
  maxRequests := 32
  maxBodyBytes := 16 * 1024 * 1024

structure Settings where
  runtime : Runtime
  apiKey : Option Str
  model : Str
  host : Str
  port : Nat
  maxRequests : Nat
  maxBodyBytes : Nat
  keyed : apiKey ≠ some []
  portRange : 1 ≤ port ∧ port ≤ 65535
  requestsRange : 1 ≤ maxRequests ∧ maxRequests ≤ 4096
  bodyRange : 1024 ≤ maxBodyBytes

/-- The validator of the keys. -/
def emptyKey (value : Option Str) : Option Str := if value = some [] then none else value

theorem emptyKey_keyed (value : Option Str) : emptyKey value ≠ some [] := by
  unfold emptyKey
  split
  · simp
  · assumption

/-- Why a server is not started: `Settings()` raises, or the parser exits. -/
inductive Exit where
  | validation
  | usage (message : String)
deriving DecidableEq

/-- `Settings()`. -/
def Settings.create (environment : Environment) : Except Exit Settings :=
  if ports : 1 ≤ environment.port ∧ environment.port ≤ 65535 then
    if requests : 1 ≤ environment.maxRequests ∧ environment.maxRequests ≤ 4096 then
      if body : 1024 ≤ environment.maxBodyBytes then
        .ok {
          runtime := environment.runtime
          apiKey := emptyKey environment.apiKey
          model := environment.model
          host := environment.host
          port := environment.port.toNat
          maxRequests := environment.maxRequests.toNat
          maxBodyBytes := environment.maxBodyBytes.toNat
          keyed := emptyKey_keyed environment.apiKey
          portRange := by omega
          requestsRange := by omega
          bodyRange := by omega }
      else .error .validation
    else .error .validation
  else .error .validation

structure Arguments where
  host : Option Str
  port : Option Int
  runtime : Option Str
  model : Option Str

theorem toNat_range {port : Int} (known : 1 ≤ port ∧ port ≤ 65535) :
    1 ≤ port.toNat ∧ port.toNat ≤ 65535 := by
  omega

/-- `--port`, one of its choices. -/
def portChoice : Option Int → Except Exit (Option { port : Nat // 1 ≤ port ∧ port ≤ 65535 })
  | none => .ok none
  | some port =>
      if known : 1 ≤ port ∧ port ≤ 65535 then .ok (some ⟨port.toNat, toNat_range known⟩)
      else .error (.usage "argument --port: invalid choice")

/-- `--runtime`, one of its choices. -/
def runtimeChoice : Option Str → Except Exit (Option Runtime)
  | none => .ok none
  | some name =>
      match Runtime.named? name with
      | some runtime => .ok (some runtime)
      | none => .error (.usage "argument --runtime: invalid choice")

def Settings.setRuntime (settings : Settings) (runtime : Option Runtime) : Settings :=
  { settings with runtime := runtime.getD settings.runtime }

/-- `engine.mlx.DEFAULT_MODEL`. -/
def defaultMlxModel : Str := lit "mlx-community/diffusiongemma-26B-A4B-it-4bit"

/-- The model that is asked for, or else the one that goes with the runtime. -/
def Settings.setModel (settings : Settings) (model : Option Str) : Settings :=
  match model with
  | some (first :: rest) => { settings with model := first :: rest }
  | none | some [] =>
      if settings.runtime = .mlx ∧ settings.model = servedModel then
        { settings with model := defaultMlxModel }
      else if settings.runtime = .decision ∧ settings.model = servedModel then
        { settings with model := Decision.MODEL }
      else settings

def Settings.setHost (settings : Settings) (host : Option Str) : Settings :=
  { settings with host := host.getD settings.host }

def Settings.setPort (settings : Settings)
    (port : Option { port : Nat // 1 ≤ port ∧ port ≤ 65535 }) : Settings :=
  match port with
  | none => settings
  | some port => { settings with port := port.val, portRange := port.property }

def loopback : List Str := [lit "127.0.0.1", lit "localhost", lit "::1"]

/-- `main`: the settings that the server is started with. -/
def main (arguments : Arguments) (environment : Environment) : Except Exit Settings := do
  let port ← portChoice arguments.port
  let runtime ← runtimeChoice arguments.runtime
  let settings ← Settings.create environment
  let settings := (settings.setRuntime runtime).setModel arguments.model
  let settings := (settings.setHost arguments.host).setPort port
  if settings.apiKey = none ∧ settings.host ∉ loopback then
    .error (.usage "Set VERIFIER_API_KEY before binding to a non-loopback interface")
  else .ok settings

/-- The UTF-8 bytes of a code point. -/
def encodeCode (code : Nat) : Bytes :=
  if code < 0x80 then [code]
  else if code < 0x800 then [0xC0 + code / 64, 0x80 + code % 64]
  else if code < 0x10000 then [0xE0 + code / 4096, 0x80 + code / 64 % 64, 0x80 + code % 64]
  else
    [0xF0 + code / 262144, 0x80 + code / 4096 % 64, 0x80 + code / 64 % 64, 0x80 + code % 64]

/-- `text.encode()`. -/
def encode (text : Str) : Bytes := text.flatMap encodeCode

/-- What `BoundaryMiddleware` is given of the settings. -/
def Settings.boundary (settings : Settings) : BoundarySettings where
  apiKey := settings.apiKey.map encode
  maxRequests := settings.maxRequests
  maxBodyBytes := settings.maxBodyBytes
  requestsRange := settings.requestsRange
  bodyRange := settings.bodyRange

end VllmVerifier.Cli
