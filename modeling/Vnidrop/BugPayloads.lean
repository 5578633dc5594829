import Vnidrop.Excepts
import Vnidrop.JsonTrees
import Vnidrop.ListParts
import Vnidrop.Paths
import Vnidrop.Utf8

/-! `normalizeBug` of the diagnostics service: the report that a JSON object asks to be stored. -/
namespace Vnidrop.BugPayloads

open JsonTrees
open Paths (Str)
open Utf8 (encode decode? Longest)

/-- What `JSON.parse` makes of a number; `-0` is `0`. -/
inductive Number where
  | finite (q : ℚ)
  | infinite (negative : Bool)

abbrev Json := Value Str Number

abbrev JsonObject := List (Str × Json)

structure InputFailure where
  status : Nat
  error : String
  deriving DecidableEq, Repr

abbrev InputResult := Except InputFailure

def failure {α : Type} (status : Nat) (error : String) : InputResult α := .error ⟨status,error⟩

structure NormalizedDevice where
  deviceName : Str
  deviceModel : Str
  operatingSystem : Str
  network : Str
  batteryLevel : Str
  deriving DecidableEq, Repr

structure NormalizedBugPayload where
  id : Str
  installId : Str
  appVersion : Str
  platform : Str
  occurredAt : Int
  whatHappened : Str
  expected : Str
  steps : Str
  contact : Str
  logs : Str
  device : NormalizedDevice
  schemaVersion : Nat
  deriving DecidableEq, Repr

def MAX_LOG_BYTES : Nat := 192 * 1024

def MAX_DEVICE_JSON_BYTES : Nat := 4000

/-- `Number.MAX_SAFE_INTEGER`. -/
def MAX_SAFE_INTEGER : Int := 9007199254740991

/-- An own property under the first of the keys that has one. -/
def pick (object : JsonObject) (keys : List String) : Option Json := keys.findSome? fun key => object.lookup key.toList

/-! Texts. -/

/-- What `String.prototype.trim` takes away. -/
def isWhitespace (c : Char) : Bool :=
  (9 ≤ c.toNat && c.toNat ≤ 13) || (0x2000 ≤ c.toNat && c.toNat ≤ 0x200a) ||
    [0x20,0xa0,0x1680,0x2028,0x2029,0x202f,0x205f,0x3000,0xfeff].contains c.toNat

def trim (s : Str) : Str := ((s.dropWhile isWhitespace).reverse.dropWhile isWhitespace).reverse

/-- `[\u0000-\u001f\u007f]`. -/
def isControl (c : Char) : Bool := c.toNat ≤ 0x1f || c.toNat == 0x7f

/-- The decoder is fatal and keeps a byte order mark. -/
def truncateUtf8 (value : Str) (maxBytes : Nat) : Str :=
  let bytes := encode value
  if bytes.length ≤ maxBytes then value else (back bytes (maxBytes - 3) maxBytes).getD []
where
  /-- The bytes before `end`, or before an earlier one, down to the last that is tried. -/
  back (bytes : List UInt8) (last : Nat) : Nat → Option Str
    | 0 => decode? (bytes.take 0)
    | k + 1 =>
      match decode? (bytes.take (k + 1)) with
      | some text => some text
      | none => if last ≤ k then back bytes last k else none

/-- The characters of a UUID, one class for each. -/
def uuid (digit : Char → Bool) : List (Char → Bool) :=
  let group n := List.replicate n digit
  group 8 ++ (· == '-') :: group 4 ++ (· == '-') :: group 4 ++ (· == '-') :: group 4 ++ (· == '-') :: group 12

/-- `[0-9a-f]`. -/
def isHex (c : Char) : Bool := c.isDigit || ('a' ≤ c && c ≤ 'f')

/-- The pattern is of the whole text, and ignores case. -/
def UUID_PATTERN : List (Char → Bool) := uuid fun c => isHex c || ('A' ≤ c && c ≤ 'F')

def test (pattern : List (Char → Bool)) (s : Str) : Bool :=
  pattern.length == s.length && (pattern.zip s).all fun p => p.1 p.2

/-- The characters of a text in `JSON.stringify`. -/
def escape (c : Char) : Str :=
  if c = '"' then ['\\','"']
  else if c = '\\' then ['\\','\\']
  else if c.toNat = 8 then ['\\','b']
  else if c.toNat = 9 then ['\\','t']
  else if c.toNat = 10 then ['\\','n']
  else if c.toNat = 12 then ['\\','f']
  else if c.toNat = 13 then ['\\','r']
  else if c.toNat < 0x20 then ['\\','u','0','0',Nat.digitChar (c.toNat / 16),Nat.digitChar (c.toNat % 16)]
  else [c]

def quote (s : Str) : Str := '"' :: s.flatMap escape ++ ['"']

def stringify (d : NormalizedDevice) : Str :=
  let entry (key : String) (value : Str) := quote key.toList ++ ':' :: quote value
  '\x7b' :: List.intercalate [',']
    [entry "deviceName" d.deviceName,entry "deviceModel" d.deviceModel,entry "operatingSystem" d.operatingSystem,
      entry "network" d.network,entry "batteryLevel" d.batteryLevel] ++ ['\x7d']

def jsonBytes (d : NormalizedDevice) : Nat := (encode (stringify d)).length

/-! Fields. -/

def stringField (object : JsonObject) (keys : List String) (maxBytes : Nat) (error : String)
    (required nonEmpty : Bool := false) : InputResult Str :=
  match pick object keys with
  | none => if required then failure 400 error else .ok []
  | some (.string raw) =>
    let value := truncateUtf8 raw maxBytes
    if nonEmpty ∧ (trim value).length = 0 then failure 400 error else .ok value
  | some _ => failure 400 error

def idField (object : JsonObject) (keys : List String) (error : String) : InputResult Str :=
  match pick object keys with
  | some (.string raw) => if test UUID_PATTERN raw then .ok (raw.map Char.toLower) else failure 400 error
  | _ => failure 400 error

def installIdField (object : JsonObject) : InputResult Str :=
  match pick object ["installId","install_id"] with
  | none => .ok "unknown".toList
  | some (.string raw) =>
    if raw = [] then .ok "unknown".toList
    else if (trim raw).length = 0 ∨ raw.any isControl then failure 400 "invalid_install_id"
    else .ok (truncateUtf8 raw 80)
  | some _ => failure 400 "invalid_install_id"

def timestampField (object : JsonObject) (keys : List String) : InputResult Int :=
  match pick object keys with
  | some (.number (.finite q)) =>
    if q.den = 1 ∧ |q.num| ≤ MAX_SAFE_INTEGER ∧ ¬q < 0 then .ok q.num else failure 400 "invalid_timestamp"
  | _ => failure 400 "invalid_timestamp"

def booleanField (object : JsonObject) (keys : List String) (error : String) (required : Bool) :
    InputResult (Option Bool) :=
  match pick object keys with
  | none => if required then failure 400 error else .ok none
  | some (.bool b) => .ok (some b)
  | some _ => failure 400 error

def schemaVersion (object : JsonObject) : InputResult Nat :=
  match pick object ["schemaVersion","schema_version"] with
  | none => .ok 1
  | some (.number (.finite q)) => if q = 1 then .ok 1 else failure 400 "unsupported_schema_version"
  | some _ => failure 400 "unsupported_schema_version"

def normalizeDevice (raw : Option Json) : InputResult NormalizedDevice :=
  match raw.getD (.object []) with
  | .object raw => do
    let deviceName ← stringField raw ["deviceName","device_name"] 128 "invalid_device"
    let deviceModel ← stringField raw ["deviceModel","device_model"] 128 "invalid_device"
    let operatingSystem ← stringField raw ["operatingSystem","operating_system"] 192 "invalid_device"
    let network ← stringField raw ["network"] 96 "invalid_device"
    let batteryLevel ← stringField raw ["batteryLevel","battery_level"] 64 "invalid_device"
    let device := ⟨deviceName,deviceModel,operatingSystem,network,batteryLevel⟩
    if jsonBytes device > MAX_DEVICE_JSON_BYTES then failure 400 "invalid_device" else return device
  | _ => failure 400 "invalid_device"

def normalizeBug : Json → InputResult NormalizedBugPayload
  | .object body => do
    let id ← idField body ["id"] "invalid_id"
    let installId ← installIdField body
    let appVersion ← stringField body ["appVersion","app_version"] 40 "invalid_app_version"
    let platform ← stringField body ["platform"] 40 "invalid_platform"
    let occurredAt ← timestampField body ["timestampMillis","timestamp_millis","occurredAt","occurred_at"]
    let whatHappened ← stringField body ["whatHappened","what_happened"] 4000 "missing_fields" true true
    let expected ← stringField body ["expected"] 4000 "missing_fields" true true
    let steps ← stringField body ["steps"] 4000 "invalid_steps"
    let contact ← stringField body ["contact"] 320 "invalid_contact"
    let includeLogs ← booleanField body ["includeLogs","include_logs"] "invalid_include_logs" false
    let logs ← stringField body ["logs"] MAX_LOG_BYTES "invalid_logs"
    let device ← normalizeDevice (pick body ["device"])
    let version ← schemaVersion body
    return ⟨id,installId,appVersion,platform,occurredAt,whatHappened,expected,steps,contact,
      if includeLogs = some true then logs else [],device,version⟩
  | _ => failure 400 "invalid_body"

/-! What a report holds of the object. -/

/-- Of the text that is submitted for a field, the longest prefix that fits; or nothing. -/
inductive Kept (object : JsonObject) (keys : List String) (maxBytes : Nat) (value : Str) : Prop where
  | absent (missing : pick object keys = none) (empty : value = [])
  | cut (raw : Str) (submitted : pick object keys = some (.string raw)) (longest : Longest maxBytes raw value)

/-- An installation that gives no id, or an empty one, is unknown. -/
inductive Installed (object : JsonObject) (value : Str) : Prop where
  | unknown (missing : pick object ["installId","install_id"] ∈ [none,some (.string [])]) (named : value = "unknown".toList)
  | cut (raw : Str) (submitted : pick object ["installId","install_id"] = some (.string raw)) (given : raw ≠ [])
      (longest : Longest 80 raw value)

def Visible (s : Str) : Prop := ∃ c ∈ s, isWhitespace c = false

/-- Hexadecimal digits of lower case, and hyphens where they belong. -/
def LowerUuid (s : Str) : Prop :=
  s.length = 36 ∧ ∀ i c, s[i]? = some c → if i ∈ [8,13,18,23] then c = '-' else isHex c

structure NormalDevice (object : JsonObject) (d : NormalizedDevice) : Prop where
  deviceName : Kept object ["deviceName","device_name"] 128 d.deviceName
  deviceModel : Kept object ["deviceModel","device_model"] 128 d.deviceModel
  operatingSystem : Kept object ["operatingSystem","operating_system"] 192 d.operatingSystem
  network : Kept object ["network"] 96 d.network
  batteryLevel : Kept object ["batteryLevel","battery_level"] 64 d.batteryLevel
  fits : jsonBytes d ≤ MAX_DEVICE_JSON_BYTES

structure Normal (body : JsonObject) (p : NormalizedBugPayload) : Prop where
  id : LowerUuid p.id
  installId : Installed body p.installId
  appVersion : Kept body ["appVersion","app_version"] 40 p.appVersion
  platform : Kept body ["platform"] 40 p.platform
  whatHappened : Kept body ["whatHappened","what_happened"] 4000 p.whatHappened
  expected : Kept body ["expected"] 4000 p.expected
  steps : Kept body ["steps"] 4000 p.steps
  contact : Kept body ["contact"] 320 p.contact
  consented : pick body ["includeLogs","include_logs"] = some (.bool true) → Kept body ["logs"] MAX_LOG_BYTES p.logs
  withheld : pick body ["includeLogs","include_logs"] ≠ some (.bool true) → p.logs = []
  device : ∃ object, (pick body ["device"]).getD (.object []) = .object object ∧ NormalDevice object p.device
  visible : ∀ s ∈ [p.whatHappened,p.expected,p.installId], Visible s
  plain : ∀ c ∈ p.installId, isControl c = false

/-- The part of a long installation id that is kept shows something. -/
def Shown (body : JsonObject) : Prop :=
  ∀ raw, pick body ["installId","install_id"] = some (.string raw) → 80 < (encode raw).length →
    ∃ head, head <+: raw ∧ (encode head).length ≤ 80 ∧ Visible head

section

variable {body object : JsonObject} {keys : List String} {maxBytes : Nat} {error : String} {raw value : Str}

theorem back_found {bytes : List UInt8} {last n k : Nat} {text : Str} (tried : last ≤ n) (below : n ≤ k)
    (found : decode? (bytes.take n) = some text) (first : ∀ j, n < j → j ≤ k → decode? (bytes.take j) = none) :
    truncateUtf8.back bytes last k = some text := by
  induction k with
  | zero =>
    cases Nat.le_zero.mp below
    exact found
  | succ k ih =>
    rw [truncateUtf8.back]
    by_cases here : n = k + 1
    · rw [← here,found]
    · rw [first (k + 1) (by omega) (Nat.le_refl _),if_pos (by omega)]
      exact ih (by omega) fun j above bound => first j above (by omega)

theorem longest_truncateUtf8 (value : Str) (maxBytes : Nat) : Longest maxBytes value (truncateUtf8 value maxBytes) := by
  unfold truncateUtf8
  by_cases short : (encode value).length ≤ maxBytes
  · rw [if_pos short]
    exact Utf8.longest_self short
  · obtain ⟨text,cut,near⟩ := Utf8.exists_longest maxBytes value
    have close : maxBytes < (encode text).length + 4 := near.resolve_left fun whole => short (whole ▸ cut.short)
    have found := (Utf8.decode?_take (Nat.le_trans cut.short (Nat.le_of_not_le short))).mpr ⟨cut.first,rfl⟩
    rw [if_neg short,back_found (by omega) cut.short found,Option.getD_some]
    · exact cut
    intro j above bound
    refine Option.eq_none_iff_forall_ne_some.mpr fun longer read => ?_
    obtain ⟨first,size⟩ := (Utf8.decode?_take (by omega)).mp read
    have shorter := (Utf8.prefix_encode_iff.mpr (cut.longest longer first (by omega))).length_le
    omega

theorem visible_of_trim (solid : (trim value).length ≠ 0) : Visible value := by
  by_contra blank
  refine solid (List.length_eq_zero_iff.mpr (ListParts.trimmed_nil.mpr fun c member => ?_))
  by_contra seen
  exact blank ⟨c,member,by simpa using seen⟩

theorem stringField_ok {required nonEmpty : Bool} (ok : stringField object keys maxBytes error required nonEmpty = .ok value) :
    Kept object keys maxBytes value ∧ (required → nonEmpty → Visible value) := by
  unfold stringField at ok
  split at ok
  · rename_i missing
    split at ok
    · cases ok
    · rename_i optional
      cases ok
      exact ⟨.absent missing rfl,fun required => absurd required optional⟩
  · rename_i raw submitted
    simp only at ok
    split at ok
    · cases ok
    · rename_i solid
      cases ok
      exact ⟨.cut raw submitted (longest_truncateUtf8 raw maxBytes),fun _ nonEmpty =>
        visible_of_trim fun blank => solid ⟨nonEmpty,blank⟩⟩
  · cases ok

theorem test_at {pattern : List (Char → Bool)} {i : Nat} {f : Char → Bool} {c : Char} (matched : test pattern raw)
    (class_ : pattern[i]? = some f) (found : raw[i]? = some c) : f c := by
  simp only [test,Bool.and_eq_true,List.all_eq_true] at matched
  have zipped : (pattern.zip raw)[i]? = some (f,c) := List.getElem?_zip_eq_some.mpr ⟨class_,found⟩
  exact matched.2 _ (List.mem_of_getElem? zipped)

theorem uuid_getElem? (digit : Char → Bool) {i : Nat} (inside : i < 36) :
    (uuid digit)[i]? = some (if i ∈ [8,13,18,23] then (· == '-') else digit) := by
  interval_cases i <;> rfl

theorem lower_hex {c : Char} (hex : (isHex c || ('A' ≤ c && c ≤ 'F')) = true) : isHex c.toLower := by
  have all : ∀ n < 128, (isHex (Char.ofNat n) || ('A' ≤ Char.ofNat n && Char.ofNat n ≤ 'F')) = true →
      isHex (Char.ofNat n).toLower := by decide
  have small : c.toNat < 128 := by
    simp only [isHex,Char.isDigit,Bool.or_eq_true,Bool.and_eq_true,decide_eq_true_eq] at hex
    obtain ((⟨-,most⟩ | ⟨-,most⟩) | ⟨-,most⟩) := hex <;> exact Nat.lt_of_le_of_lt most (by decide)
  have same := Char.ofNat_toNat c
  rw [← same] at hex ⊢
  exact all c.toNat small hex

theorem lower_uuid (matched : test UUID_PATTERN raw) : LowerUuid (raw.map Char.toLower) := by
  have long := matched
  simp only [test,Bool.and_eq_true,beq_iff_eq] at long
  have size : raw.length = 36 := long.1.symm
  refine ⟨by simpa using size,fun i c found => ?_⟩
  rw [List.getElem?_map,Option.map_eq_some_iff] at found
  obtain ⟨d,found,rfl⟩ := found
  have here := test_at matched (uuid_getElem? _ (size ▸ (List.getElem?_eq_some_iff.mp found).1)) found
  split at here
  · rename_i hyphen
    rw [if_pos hyphen,beq_iff_eq.mp here]
    rfl
  · rename_i digit
    rw [if_neg digit]
    exact lower_hex here

theorem idField_ok (ok : idField object keys error = .ok value) : LowerUuid value := by
  unfold idField at ok
  split at ok
  · split at ok
    · rename_i matched
      cases ok
      exact lower_uuid matched
    · cases ok
  · cases ok

/-- What is checked of an installation id is all of it, and what is kept of it is a prefix. -/
theorem installIdField_ok (ok : installIdField object = .ok value) :
    Installed object value ∧ (∀ c ∈ value, isControl c = false) ∧ (Visible value ↔ Shown object) := by
  have unknown : Visible "unknown".toList := ⟨'u',by simp,by decide⟩
  have named : ∀ c ∈ "unknown".toList, isControl c = false := by simp [isControl]
  unfold installIdField at ok
  split at ok
  · rename_i missing
    cases ok
    refine ⟨.unknown (by simp [missing]) rfl,named,fun _ raw submitted => ?_,fun _ => unknown⟩
    rw [missing] at submitted
    cases submitted
  · rename_i raw submitted
    split at ok
    · rename_i empty
      cases ok
      refine ⟨.unknown (by simp [submitted,empty]) rfl,named,fun _ other same long => ?_,fun _ => unknown⟩
      rw [submitted,empty] at same
      cases same
      cases long
    · rename_i given
      split at ok
      · cases ok
      · rename_i clean
        cases ok
        rw [not_or] at clean
        have cut := longest_truncateUtf8 raw 80
        refine ⟨.cut raw submitted given cut,fun c member => ?_,fun visible other same _ => ?_,fun shown => ?_⟩
        · simpa using fun control => clean.2 (List.any_eq_true.mpr ⟨c,cut.first.subset member,control⟩)
        · rw [submitted] at same
          cases same
          exact ⟨_,cut.first,cut.short,visible⟩
        · by_cases long : 80 < (encode raw).length
          · obtain ⟨head,first,short,c,member,seen⟩ := shown raw submitted long
            exact ⟨c,(cut.longest head first short).subset member,seen⟩
          · rw [cut.unique (Utf8.longest_self (Nat.le_of_not_lt long))]
            exact visible_of_trim clean.1
  · cases ok

theorem normalizeDevice_ok {given : Option Json} {d : NormalizedDevice} (ok : normalizeDevice given = .ok d) :
    ∃ object, given.getD (.object []) = .object object ∧ NormalDevice object d := by
  unfold normalizeDevice at ok
  split at ok
  · rename_i raw same
    simp only [Excepts.bind_ok] at ok
    obtain ⟨name,first,model,second,system,third,network,fourth,battery,fifth,ok⟩ := ok
    split at ok
    · cases ok
    · rename_i fits
      cases ok
      exact ⟨raw,same,(stringField_ok first).1,(stringField_ok second).1,(stringField_ok third).1,(stringField_ok fourth).1,
        (stringField_ok fifth).1,Nat.le_of_not_lt fits⟩
  · cases ok

theorem booleanField_ok {required : Bool} {given : Option Bool} (ok : booleanField object keys error required = .ok given) :
    given = some true ↔ pick object keys = some (.bool true) := by
  unfold booleanField at ok
  split at ok
  · rename_i missing
    split at ok
    · cases ok
    · cases ok
      simp [missing]
  · rename_i b submitted
    cases ok
    simp [submitted]
  · cases ok

/-- An accepted report holds what it is to hold exactly if what is kept of its installation id shows. -/
theorem normal_iff {p : NormalizedBugPayload} (accepted : normalizeBug (.object body) = .ok p) :
    Normal body p ↔ Shown body := by
  unfold normalizeBug at accepted
  simp only [Excepts.bind_ok] at accepted
  obtain ⟨id,idOk,installId,installOk,appVersion,appOk,platform,platformOk,occurredAt,-,whatHappened,whatOk,
    expected,expectedOk,steps,stepsOk,contact,contactOk,includeLogs,includeOk,logs,logsOk,device,deviceOk,
    version,-,same⟩ := accepted
  cases same
  obtain ⟨installed,plain,visible⟩ := installIdField_ok installOk
  obtain ⟨whatKept,whatVisible⟩ := stringField_ok whatOk
  obtain ⟨expectedKept,expectedVisible⟩ := stringField_ok expectedOk
  have consent := booleanField_ok includeOk
  constructor
  · intro normal
    exact visible.mp (normal.visible installId (by simp))
  · intro shown
    exact {
      id := idField_ok idOk
      installId := installed
      appVersion := (stringField_ok appOk).1
      platform := (stringField_ok platformOk).1
      whatHappened := whatKept
      expected := expectedKept
      steps := (stringField_ok stepsOk).1
      contact := (stringField_ok contactOk).1
      consented := fun given => by
        rw [if_pos (consent.mpr given)]
        exact (stringField_ok logsOk).1
      withheld := fun denied => if_neg (mt consent.mp denied)
      device := normalizeDevice_ok deviceOk
      visible := by
        simpa using ⟨whatVisible rfl rfl,expectedVisible rfl rfl,visible.mpr shown⟩
      plain := plain }

/-- A report with what has to be there, and the payload that it is normalized to. -/
def report (installId : Str) : JsonObject :=
  [("id".toList,.string "01234567-89AB-cdef-0123-456789abcdef".toList),("installId".toList,.string installId),
    ("timestampMillis".toList,.number (.finite 0)),("whatHappened".toList,.string ['a']),("expected".toList,.string ['b'])]

def normalized (installId : Str) : NormalizedBugPayload :=
  ⟨"01234567-89ab-cdef-0123-456789abcdef".toList,installId,[],[],0,['a'],['b'],[],[],[],⟨[],[],[],[],[]⟩,1⟩

theorem normalizeBug_report (installId : Str) :
    normalizeBug (.object (report installId)) = (installIdField (report installId)).map normalized := by rfl

theorem report_normal : normalizeBug (.object (report ['c'])) = .ok (normalized ['c']) ∧
    Normal (report ['c']) (normalized ['c']) := by
  refine ⟨rfl,(normal_iff rfl).mpr fun raw submitted long => ?_⟩
  cases submitted
  exact absurd long (by decide)

/-- Of an installation id that shows after its first 80 bytes only, a blank is kept. -/
theorem blank_id_kept : ∃ p, normalizeBug (.object (report (List.replicate 80 ' ' ++ ['x']))) = .ok p ∧
    ¬Normal (report (List.replicate 80 ' ' ++ ['x'])) p := by
  have checked : installIdField (report (List.replicate 80 ' ' ++ ['x'])) =
      .ok (truncateUtf8 (List.replicate 80 ' ' ++ ['x']) 80) := by rfl
  have cut := longest_truncateUtf8 (List.replicate 80 ' ' ++ ['x']) 80
  have accepted := (normalizeBug_report _).trans (congrArg (Except.map normalized) checked)
  refine ⟨_,accepted,fun normal => ?_⟩
  have shows : Visible (truncateUtf8 (List.replicate 80 ' ' ++ ['x']) 80) :=
    normal.visible _ (List.mem_cons_of_mem _ (List.mem_cons_of_mem _ List.mem_cons_self))
  obtain ⟨c,member,seen⟩ := shows
  obtain whole | spaces := List.prefix_concat_iff.mp cut.first
  · have short := cut.short
    rw [whole] at short
    exact absurd short (by simp [show ' '.utf8Size = 1 from rfl,show 'x'.utf8Size = 1 from rfl])
  · rw [List.eq_of_mem_replicate (spaces.subset member)] at seen
    cases seen

end

end Vnidrop.BugPayloads
