import WebSocketPatterns.Collections.Dict
import Mathlib.Algebra.Field.Rat

/-!
# Decoding a message

`Message.from_json` guards `json.loads` but not the subscripts after it, which
raise `KeyError` on an object without the key and `TypeError` on everything that
is not an object. `json.loads` is a parameter: it returns the parsed value, or
the text of its `JSONDecodeError`.
-/

namespace WebSocketPatterns.PubSub

/-- A `float` as `json.loads` returns it; `NaN` and the infinities are accepted. -/
inductive PyFloat
  | finite (x : ℚ)
  | infinity (negative : Bool)
  | nan
deriving DecidableEq

/-- A parsed JSON value; an object lists its members in text order. -/
inductive Json
  | null
  | bool (b : Bool)
  | int (n : Int)
  | float (x : PyFloat)
  | str (s : String)
  | list (items : List Json)
  | dict (members : List (String × Json))

/-- The exceptions that decoding a message can raise, with their texts. -/
inductive PyError
  | valueError (text : String)
  | keyError (key : String)
  | typeError (text : String)
  | attributeError (text : String)
deriving DecidableEq

namespace Json

/-- `type(value).__name__`. -/
def typeName : Json → String
  | null => "NoneType"
  | bool _ => "bool"
  | int _ => "int"
  | float _ => "float"
  | str _ => "str"
  | list _ => "list"
  | dict _ => "dict"

/-- The `dict` of an object: of members with the same name the last one counts. -/
def dictOf (members : List (String × Json)) : Dict String Json :=
  members.foldl (fun d member => d.set member.1 member.2) ∅

/-- `data[key]` for a string key. -/
def getItem (data : Json) (key : String) : Except PyError Json :=
  match data with
  | dict members =>
      match (dictOf members).lookup key with
      | some value => .ok value
      | none => .error (.keyError key)
  | list _ => .error (.typeError "list indices must be integers or slices, not str")
  | str _ => .error (.typeError "string indices must be integers, not 'str'")
  | other => .error (.typeError ("'" ++ other.typeName ++ "' object is not subscriptable"))

/-- `data.get(key, default)`. -/
def get (data : Json) (key : String) (default : Json) : Except PyError Json :=
  match data with
  | dict members => .ok (((dictOf members).lookup key).getD default)
  | other => .error (.attributeError ("'" ++ other.typeName ++ "' object has no attribute 'get'"))

/-- The value of a field; only an object has fields. -/
def field? (key : String) : Json → Option Json
  | dict members => (dictOf members).lookup key
  | _ => none

/-- An object with the two fields a message must have. -/
def HasRequiredFields (data : Json) : Prop :=
  (data.field? "channel").isSome = true ∧ (data.field? "payload").isSome = true

instance (data : Json) : Decidable data.HasRequiredFields := inferInstanceAs (Decidable (_ ∧ _))

end Json

/-- A `Message` as `from_json` constructs it: the dataclass checks no field. -/
structure DecodedMessage where
  channel : Json
  payload : Json
  timestamp : Json
  publisherId : Json

/-- `Message.from_json`; `now` is what `time.time()` returns. -/
def fromJson (loads : String → Except String Json) (now : ℚ) (raw : String) :
    Except PyError DecodedMessage :=
  match loads raw with
  | .error e => .error (.valueError ("Invalid message JSON: " ++ e))
  | .ok data => do
      let channel ← data.getItem "channel"
      let payload ← data.getItem "payload"
      let timestamp ← data.get "timestamp" (.float (.finite now))
      let publisherId ← data.get "publisher_id" (.str "")
      return ⟨channel, payload, timestamp, publisherId⟩

namespace Json

theorem getItem_of_field {data value : Json} {key : String} (h : data.field? key = some value) :
    data.getItem key = .ok value := by
  cases data with
  | dict members =>
      have hlookup : (dictOf members).lookup key = some value := h
      simp [getItem, hlookup]
  | _ => simp [field?] at h

/-- A subscript that finds no field raises, but no `ValueError`. -/
theorem getItem_of_no_field {data : Json} {key : String} (h : data.field? key = none) :
    ∃ e, data.getItem key = .error e ∧ ∀ text, e ≠ .valueError text := by
  cases data with
  | dict members =>
      have hlookup : (dictOf members).lookup key = none := h
      exact ⟨.keyError key, by simp [getItem, hlookup], by simp⟩
  | _ => exact ⟨_, rfl, by simp⟩

/-- Once a field was found, reading another with a default succeeds. -/
theorem get_of_field {data value : Json} {key : String} (h : data.field? key = some value)
    (other : String) (default : Json) :
    data.get other default = .ok ((data.field? other).getD default) := by
  cases data with
  | dict members => rfl
  | _ => simp [field?] at h

end Json

section FromJson

variable {loads : String → Except String Json} {raw : String} (now : ℚ)

theorem fromJson_of_invalid {e : String} (h : loads raw = .error e) :
    fromJson loads now raw = .error (.valueError ("Invalid message JSON: " ++ e)) := by
  rw [fromJson, h]

/-- An object with both fields is decoded, the other two fields with their defaults. -/
theorem fromJson_of_fields {data channel payload : Json} (h : loads raw = .ok data)
    (hchannel : data.field? "channel" = some channel)
    (hpayload : data.field? "payload" = some payload) :
    fromJson loads now raw = .ok
      ⟨channel, payload, (data.field? "timestamp").getD (.float (.finite now)),
        (data.field? "publisher_id").getD (.str "")⟩ := by
  have hget := Json.get_of_field hchannel
  simp [fromJson, h, Json.getItem_of_field hchannel, Json.getItem_of_field hpayload, hget, bind,
    Except.bind, pure, Except.pure]

/-- Everything else that parses raises something that is not a `ValueError`. -/
theorem fromJson_of_missing {data : Json} (h : loads raw = .ok data)
    (hmissing : ¬ data.HasRequiredFields) :
    ∃ e, fromJson loads now raw = .error e ∧ ∀ text, e ≠ .valueError text := by
  cases hchannel : data.field? "channel" with
  | none =>
      obtain ⟨e, he, hne⟩ := Json.getItem_of_no_field hchannel
      exact ⟨e, by simp [fromJson, h, he, bind, Except.bind], hne⟩
  | some channel =>
      cases hpayload : data.field? "payload" with
      | none =>
          obtain ⟨e, he, hne⟩ := Json.getItem_of_no_field hpayload
          have hok := Json.getItem_of_field hchannel
          exact ⟨e, by simp [fromJson, h, hok, he, bind, Except.bind], hne⟩
      | some payload => simp [Json.HasRequiredFields, hchannel, hpayload] at hmissing

end FromJson

/-- The contract of `from_json` at one input: a decoded message has the values of the required
fields, `ValueError` is raised exactly if they cannot be had, and nothing else is raised. -/
structure RaisesAsDocumented (loads : String → Except String Json) (now : ℚ) (raw : String) :
    Prop where
  decoded : ∀ msg, fromJson loads now raw = .ok msg → ∃ data, loads raw = .ok data ∧
    data.field? "channel" = some msg.channel ∧ data.field? "payload" = some msg.payload
  raised : (∃ text, fromJson loads now raw = .error (.valueError text)) ↔
    ¬ ∃ data, loads raw = .ok data ∧ data.HasRequiredFields
  nothingElse : ∀ e, fromJson loads now raw = .error e → ∃ text, e = .valueError text

/-- The contract is kept exactly where the input is no JSON or has the required fields. -/
theorem raises_as_documented_iff (loads : String → Except String Json) (now : ℚ) (raw : String) :
    RaisesAsDocumented loads now raw ↔
      ∀ data, loads raw = .ok data → data.HasRequiredFields := by
  constructor
  · intro contract data h
    by_contra hmissing
    obtain ⟨e, he, hne⟩ := fromJson_of_missing now h hmissing
    obtain ⟨text, rfl⟩ := contract.nothingElse e he
    exact hne text rfl
  · intro hfields
    cases h : loads raw with
    | error e =>
        have heq := fromJson_of_invalid now h
        constructor
        case decoded => simp [heq]
        case raised => simp [heq, h]
        case nothingElse => simp [heq]
    | ok data =>
        have hdata := hfields data h
        obtain ⟨channel, hchannel⟩ := Option.isSome_iff_exists.mp hdata.1
        obtain ⟨payload, hpayload⟩ := Option.isSome_iff_exists.mp hdata.2
        have heq := fromJson_of_fields now h hchannel hpayload
        constructor
        case decoded =>
          intro msg hmsg
          obtain rfl := Except.ok.inj (heq.symm.trans hmsg)
          exact ⟨data, h, hchannel, hpayload⟩
        case raised => simp [heq, h, hdata]
        case nothingElse => simp [heq]

/-- `json.loads` on two short texts; every other text is rejected. -/
def loadsEmpty (raw : String) : Except String Json :=
  if raw = "[]" then .ok (.list [])
  else if raw = "\x7b\x7d" then .ok (.dict [])
  else .error "Expecting value: line 1 column 1 (char 0)"

/-- An array raises `TypeError`, an object without the fields `KeyError`. -/
theorem non_object_raises_type_error :
    fromJson loadsEmpty 0 "[]" =
        .error (.typeError "list indices must be integers or slices, not str") ∧
      fromJson loadsEmpty 0 "\x7b\x7d" = .error (.keyError "channel") ∧
      ¬ RaisesAsDocumented loadsEmpty 0 "[]" ∧ ¬ RaisesAsDocumented loadsEmpty 0 "\x7b\x7d" := by
  have hlist : fromJson loadsEmpty 0 "[]" =
      .error (.typeError "list indices must be integers or slices, not str") := by
    simp [fromJson, loadsEmpty, Json.getItem, bind, Except.bind]
  have hdict : fromJson loadsEmpty 0 "\x7b\x7d" = .error (.keyError "channel") := by
    simp [fromJson, loadsEmpty, Json.getItem, Json.dictOf, bind, Except.bind]
  refine ⟨hlist, hdict, ?_, ?_⟩
  · intro contract
    obtain ⟨text, he⟩ := contract.nothingElse _ hlist
    simp at he
  · intro contract
    obtain ⟨text, he⟩ := contract.nothingElse _ hdict
    simp at he

end WebSocketPatterns.PubSub
