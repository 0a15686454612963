import ProofboundRuntime.Lib.Mut
import ProofboundRuntime.Lib.Cbor.ClosedMap
import ProofboundRuntime.Wire.Encoder
import ProofboundRuntime.Launcher.Message

/-!
# The codec of launcher messages

`encode_launcher_message` and `decode_launcher_message` of `launcher.rs`, with the
value tree between a message and its bytes.  The tree of the source has the first
five forms of a data item; the encoder has no bytes for the others and the
decoder does not return them.

The recursion of `value` is on the levels that are left, `MAX_NESTING_DEPTH`
less the depth.
-/

namespace ProofboundRuntime.Launcher

open ProofboundRuntime.Core Cbor Result

/-- `MAX_LAUNCHER_FRAME_BYTES`. -/
def maxLauncherFrameBytes : Nat := 1024 * 1024

/-- `MAX_NESTING_DEPTH`. -/
def maxNestingDepth : Nat := 32

/-! ## The encoder -/

/-- `canonical_key_order`. -/
def canonicalKeyOrder (left right : String) : Ordering :=
  (compare (Utf8.bytes left).length (Utf8.bytes right).length).then
    (compare (Utf8.bytes left) (Utf8.bytes right))

/-- A method that appends to the output. -/
abbrev Append := List UInt8 → Except LauncherError (List UInt8)

/-- The check at the end of `encode_value`. -/
def checkFrame (output : List UInt8) : Except LauncherError (List UInt8) := do
  rejectIf (maxLauncherFrameBytes < output.length) .frameTooLarge
  pure output

/-- `encode_value` of a text. -/
def encodeText (text : String) : Append := fun output => do
  let item ← Wire.encodeText .frameTooLarge text
  checkFrame (output ++ item)

/-- The loops of `encode_value`. -/
def appendAll : List Append → Append
  | [], output => .ok output
  | append :: appends, output => do
    let output ← append output
    appendAll appends output

mutual

/-- `encode_value`.  The entries of a map are sorted before they are written. -/
def encodeValue : Value → Append
  | .unsigned number => fun output => checkFrame (output ++ Wire.encodeArgument 0 number)
  | .bytes bytes => fun output => do
    let item ← Wire.encodeBytes .frameTooLarge bytes
    checkFrame (output ++ item)
  | .text text => encodeText text
  | .array items => fun output => do
    let header ← Wire.encodeLength .frameTooLarge 4 items.length
    let output ← appendAll (encodeItems items) (output ++ header)
    checkFrame output
  | .map entries => fun output => do
    let fields := Sorting.sortBy (fun d e => canonicalKeyOrder d.1 e.1) (encodeEntries entries)
    let header ← Wire.encodeLength .frameTooLarge 5 fields.length
    let output ← appendAll (fields.map Prod.snd) (output ++ header)
    checkFrame output
  | _ => fun _ => .error .malformed

def encodeItems : List Value → List Append
  | [] => []
  | item :: items => encodeValue item :: encodeItems items

/-- The keys, each with the method that writes its entry. -/
def encodeEntries : List (String × Value) → List (String × Append)
  | [] => []
  | (key, value) :: entries =>
    (key, fun output => do
      let output ← encodeText key output
      encodeValue value output) :: encodeEntries entries

end

/-! ## The decoder -/

/-- `Decoder`. -/
structure Decoder where
  input : List UInt8
  position : Nat
deriving DecidableEq

abbrev DecoderM := Mut Decoder LauncherError

namespace Decoder

def byte : DecoderM UInt8 := do
  let self ← Mut.get
  let byte ← Mut.lift (okOr self.input[self.position]? .truncated)
  Mut.modify fun self => { self with position := self.position + 1 }
  pure byte

def bytes (length : Nat) : DecoderM (List UInt8) := do
  let self ← Mut.get
  let stop := self.position + length
  -- `checked_add` on a 64-bit `usize`
  Mut.lift (rejectIf (2 ^ 64 ≤ stop) .frameTooLarge)
  Mut.lift (rejectIf (self.input.length < stop) .truncated)
  Mut.modify fun self => { self with position := stop }
  pure ((self.input.drop self.position).take length)

/-- A big-endian integer on so many bytes. -/
def integer (width : Nat) : DecoderM UInt64 := do
  let bytes ← bytes width
  pure (UInt64.ofNat (BigEndian.ofBytes bytes))

def argument (additional : UInt8) : DecoderM UInt64 :=
  if additional < 24 then pure additional.toUInt64
  else if additional = 24 then do
    let byte ← byte
    pure byte.toUInt64
  else if additional = 25 then integer 2
  else if additional = 26 then integer 4
  else if additional = 27 then integer 8
  else Mut.fail .malformed

/-- `bounded_count`. -/
def boundedCount (value : UInt64) : Except LauncherError Nat := do
  rejectIf (maxCollectionItems < value.toNat) .frameTooLarge
  pure value.toNat

/-- The loop over the items of an array. -/
def items (value : DecoderM Value) : Nat → DecoderM (List Value)
  | 0 => pure []
  | count + 1 => do
    let item ← value
    let rest ← items value count
    pure (item :: rest)

/-- A key has to be a text. -/
def keyText : Value → Except LauncherError String
  | .text key => .ok key
  | _ => .error .malformed

/-- The loop over the entries of a map, after the entries `seen`. -/
def entries (value : DecoderM Value) (seen : List (String × Value)) :
    Nat → DecoderM (List (String × Value))
  | 0 => pure seen
  | count + 1 => do
    let key ← value
    let key ← Mut.lift (keyText key)
    Mut.lift (rejectIf (seen.any fun e => e.1 == key) .duplicateKey)
    let item ← value
    entries value (seen ++ [(key, item)]) count

/-- What follows the head of an item. -/
def content (value : DecoderM Value) (major : UInt8) (argument : UInt64) : DecoderM Value :=
  if major = 0 then pure (.unsigned argument)
  else if major = 2 then do
    let bytes ← bytes argument.toNat
    pure (.bytes bytes)
  else if major = 3 then do
    let bytes ← bytes argument.toNat
    let text ← Mut.lift (okOr (Utf8.fromUtf8 bytes) .malformed)
    pure (.text text)
  else if major = 4 then do
    let count ← Mut.lift (boundedCount argument)
    let items ← items value count
    pure (.array items)
  else if major = 5 then do
    let count ← Mut.lift (boundedCount argument)
    let entries ← entries value [] count
    pure (.map entries)
  else Mut.fail .malformed

def value : (levels : Nat) → DecoderM Value
  | 0 => Mut.fail .malformed
  | levels + 1 => do
    let initial ← byte
    let major := initial >>> 5
    let additional := initial &&& 0x1f
    if additional = 31 then Mut.fail .nonCanonical
    else do
      let argument ← argument additional
      content (value levels) major argument

end Decoder

/-! ## Messages as values -/

def installSchema : String := "proofbound-runtime-launcher-install/1"
def boundarySchema : String := "proofbound-runtime-launcher-boundary-installed/1"
def releaseSchema : String := "proofbound-runtime-launcher-exec-release/1"
def failureSchema : String := "proofbound-runtime-launcher-failure/1"

/-- `digest_value`. -/
def digestValue (digest : Sha256Digest) : Value :=
  .map [("algorithm", .text "sha256"), ("digest", .bytes digest.toList)]

/-- `cgroup_value`. -/
def cgroupValue (identity : CgroupIdentity) : Value :=
  .map [("mount_id", .unsigned identity.mountId), ("inode", .unsigned identity.inode)]

/-- `artifact_value`. -/
def artifactValue (identity : ArtifactIdentity) : Value :=
  .map
    [("role", .text identity.role.asStr),
     ("digest", digestValue identity.digest),
     ("size", .unsigned identity.size),
     ("mode", .unsigned identity.mode.get.toUInt64)]

/-- `filesystem_rule_value`. -/
def filesystemRuleValue (rule : LauncherFilesystemRule) : Value :=
  .map
    [("fd", .unsigned rule.descriptor.toUInt64),
     ("access", .array (rule.access.map fun item => .text (accessName item)))]

/-- `identity_entries`. -/
def identityEntries (identity : LauncherIdentity) : List (String × Value) :=
  [("execution_id", .bytes identity.executionId.bytes.toList),
   ("policy_id", digestValue identity.policyId),
   ("cgroup_id", cgroupValue identity.cgroupId)]

/-- The value of an environment. -/
def environmentValue (environment : Environment) : Value :=
  .map (environment.toList.map fun (name, value) => (name, .text value))

/-- The members of an install request. -/
def installEntries (request : InstallRequest) : List (String × Value) :=
  identityEntries request.identity ++
    [("schema", .text installSchema),
     ("executable_id", artifactValue request.executableId),
     ("executable_fd", .unsigned request.executableFd.toUInt64),
     ("working_directory_fd", .unsigned request.workingDirectoryFd.toUInt64),
     ("arguments", .array (request.arguments.map .text)),
     ("environment", environmentValue request.environment),
     ("filesystem", .array (request.filesystem.map filesystemRuleValue)),
     ("seccomp_program", .bytes request.seccompProgram),
     ("close_file_descriptors_from", .unsigned request.closeFileDescriptorsFrom.toUInt64)]

/-- `message_to_value`. -/
def messageToValue : LauncherMessage → Value
  | .install request => .map (installEntries request)
  | .boundaryInstalled installed => .map (identityEntries installed.identity ++
      [("schema", .text boundarySchema), ("state", .text "installed")])
  | .execRelease release => .map (identityEntries release.identity ++
      [("schema", .text releaseSchema), ("state", .text "released")])
  | .failure failure => .map (identityEntries failure.identity ++
      [("schema", .text failureSchema), ("stage", .text failure.stage.asStr),
       ("error_code", .text failure.errorCode)])

/-! ## Values as messages -/

/-- `require_keys`. -/
def requireKeys (map : List (String × Value)) (expected : List String) :
    Except LauncherError Unit :=
  rejectIf (hasExactly map expected = false) .malformed

/-- `field`. -/
def field (map : List (String × Value)) (name : String) : Except LauncherError Value :=
  okOr (lookup map name) .malformed

def asMap : Value → Except LauncherError (List (String × Value))
  | .map value => .ok value
  | _ => .error .malformed

def asArray : Value → Except LauncherError (List Value)
  | .array value => .ok value
  | _ => .error .malformed

def asText : Value → Except LauncherError String
  | .text value => .ok value
  | _ => .error .malformed

def asBytes : Value → Except LauncherError (List UInt8)
  | .bytes value => .ok value
  | _ => .error .malformed

def asUnsigned : Value → Except LauncherError UInt64
  | .unsigned value => .ok value
  | _ => .error .malformed

def asU32 (value : Value) : Except LauncherError UInt32 := do
  let value ← asUnsigned value
  rejectIf (2 ^ 32 ≤ value.toNat) .malformed
  pure value.toUInt32

/-- `try_into` to an array. -/
def asArrayOf (size : Nat) (bytes : List UInt8) : Except LauncherError (Vector UInt8 size) :=
  if h : bytes.length = size then .ok (Vector.mk bytes.toArray (by simpa using h))
  else .error .malformed

/-- `decode_digest`. -/
def decodeDigest (value : Value) : Except LauncherError Sha256Digest := do
  let map ← asMap value
  requireKeys map ["algorithm", "digest"]
  let algorithm ← field map "algorithm"
  let algorithm ← asText algorithm
  rejectIf (algorithm ≠ "sha256") .malformed
  let digest ← field map "digest"
  let bytes ← asBytes digest
  asArrayOf 32 bytes

/-- `decode_cgroup`. -/
def decodeCgroup (value : Value) : Except LauncherError CgroupIdentity := do
  let map ← asMap value
  requireKeys map ["mount_id", "inode"]
  let mountId ← field map "mount_id"
  let mountId ← asUnsigned mountId
  let inode ← field map "inode"
  let inode ← asUnsigned inode
  pure ⟨mountId, inode⟩

/-- `u16::try_from` and `FileMode::new`. -/
def decodeMode (value : UInt64) : Except LauncherError FileMode :=
  if 2 ^ 16 ≤ value.toNat then .error .malformed
  else (FileMode.new value.toUInt16).mapError fun _ => .malformed

/-- `decode_artifact`. -/
def decodeArtifact (value : Value) : Except LauncherError ArtifactIdentity := do
  let map ← asMap value
  requireKeys map ["role", "digest", "size", "mode"]
  let role ← field map "role"
  let role ← asText role
  rejectIf (role ≠ ArtifactRole.runtimeExecutable.asStr) .malformed
  let mode ← field map "mode"
  let mode ← asUnsigned mode
  let mode ← decodeMode mode
  let digest ← field map "digest"
  let digest ← decodeDigest digest
  let size ← field map "size"
  let size ← asUnsigned size
  pure ⟨.runtimeExecutable, digest, size, mode⟩

/-- `decode_filesystem_rule`. -/
def decodeFilesystemRule (value : Value) : Except LauncherError LauncherFilesystemRule := do
  let map ← asMap value
  requireKeys map ["fd", "access"]
  let access ← field map "access"
  let access ← asArray access
  let access ← collect (fun value => asText value >>= parseAccess) access
  let fd ← field map "fd"
  let fd ← asU32 fd
  LauncherFilesystemRule.new fd access

/-- `decode_identity`. -/
def decodeIdentity (map : List (String × Value)) : Except LauncherError LauncherIdentity := do
  let execution ← field map "execution_id"
  let execution ← asBytes execution
  let execution ← asArrayOf 16 execution
  let executionId ← (ExecutionId.fromBytes execution).mapError fun _ => .malformed
  let policyId ← field map "policy_id"
  let policyId ← decodeDigest policyId
  let cgroupId ← field map "cgroup_id"
  let cgroupId ← decodeCgroup cgroupId
  pure ⟨executionId, policyId, cgroupId⟩

/-- The environment of `decode_install`, collected into a map. -/
def decodeEnvironment (map : List (String × Value)) : Except LauncherError Environment := do
  let entries ← collect (fun e : String × Value => do
    let value ← asText e.2
    pure (e.1, value)) map
  pure (Std.ExtTreeMap.ofList entries Utf8.cmp)

/-- `decode_install`. -/
def decodeInstall (map : List (String × Value)) : Except LauncherError InstallRequest := do
  requireKeys map
    ["schema", "execution_id", "policy_id", "cgroup_id", "executable_id", "executable_fd",
     "working_directory_fd", "arguments", "environment", "filesystem", "seccomp_program",
     "close_file_descriptors_from"]
  let identity ← decodeIdentity map
  let executableId ← field map "executable_id"
  let executableId ← decodeArtifact executableId
  let executableFd ← field map "executable_fd"
  let executableFd ← asU32 executableFd
  let workingDirectoryFd ← field map "working_directory_fd"
  let workingDirectoryFd ← asU32 workingDirectoryFd
  let arguments ← field map "arguments"
  let arguments ← asArray arguments
  let arguments ← collect asText arguments
  let environment ← field map "environment"
  let environment ← asMap environment
  let environment ← decodeEnvironment environment
  let filesystem ← field map "filesystem"
  let filesystem ← asArray filesystem
  let filesystem ← collect decodeFilesystemRule filesystem
  let seccompProgram ← field map "seccomp_program"
  let seccompProgram ← asBytes seccompProgram
  let closeFileDescriptorsFrom ← field map "close_file_descriptors_from"
  let closeFileDescriptorsFrom ← asU32 closeFileDescriptorsFrom
  InstallRequest.new
    { identity, executableId, executableFd, workingDirectoryFd, arguments, environment,
      filesystem, seccompProgram, closeFileDescriptorsFrom }

/-- The state text of a boundary or release message. -/
def requireState (map : List (String × Value)) (expected : String) : Except LauncherError Unit := do
  let state ← field map "state"
  let state ← asText state
  rejectIf (state ≠ expected) .malformed

/-- `decode_boundary`. -/
def decodeBoundary (map : List (String × Value)) : Except LauncherError BoundaryInstalled := do
  requireKeys map ["schema", "execution_id", "policy_id", "cgroup_id", "state"]
  requireState map "installed"
  let identity ← decodeIdentity map
  pure ⟨identity⟩

/-- `decode_release`. -/
def decodeRelease (map : List (String × Value)) : Except LauncherError ExecRelease := do
  requireKeys map ["schema", "execution_id", "policy_id", "cgroup_id", "state"]
  requireState map "released"
  let identity ← decodeIdentity map
  pure ⟨identity⟩

/-- `decode_failure`. -/
def decodeFailure (map : List (String × Value)) : Except LauncherError LauncherFailure := do
  requireKeys map ["schema", "execution_id", "policy_id", "cgroup_id", "stage", "error_code"]
  let identity ← decodeIdentity map
  let stage ← field map "stage"
  let stage ← asText stage
  let stage ← LauncherStage.parse stage
  let errorCode ← field map "error_code"
  let errorCode ← asText errorCode
  LauncherFailure.new identity stage errorCode

/-- `value_to_message`. -/
def valueToMessage (value : Value) : Except LauncherError LauncherMessage := do
  let map ← asMap value
  let schema ← field map "schema"
  let schema ← asText schema
  if schema = installSchema then (decodeInstall map).map .install
  else if schema = boundarySchema then (decodeBoundary map).map .boundaryInstalled
  else if schema = releaseSchema then (decodeRelease map).map .execRelease
  else if schema = failureSchema then (decodeFailure map).map .failure
  else .error .unsupportedVersion

/-! ## The codec -/

/-- `encode_launcher_message`. -/
def encodeLauncherMessage (message : LauncherMessage) : Except LauncherError (List UInt8) := do
  let output ← encodeValue (messageToValue message) []
  checkFrame output

/-- `decode_launcher_message`. -/
def decodeLauncherMessage (input : List UInt8) : Except LauncherError LauncherMessage := do
  rejectIf (input = []) .eof
  rejectIf (maxLauncherFrameBytes < input.length) .frameTooLarge
  let (result, decoder) := Decoder.value maxNestingDepth ⟨input, 0⟩
  let value ← result
  rejectIf (decoder.position ≠ input.length) .trailingData
  let message ← valueToMessage value
  let canonical ← encodeLauncherMessage message
  rejectIf (canonical ≠ input) .nonCanonical
  pure message

end ProofboundRuntime.Launcher
