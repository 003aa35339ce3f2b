import Mathlib.Data.Rat.Defs
import Mathlib.Data.List.Nodup
import Mathlib.Data.List.TakeWhile
import LinuxMiniProjects.Lib.Bytes

/-!
JSON values, and what a program may expect of a JSON library for C.

Such a library hands out strings as C strings: a reader of a string sees
its bytes up to the first zero byte. A string of a parsed text can have a
zero byte in it all the same, because the text may name one with an
escape. A value is `Clean` if it has no such string.

`Library` has the two functions of the library, and the laws that relate
them. A table of texts with the value of each is a library.
-/

namespace LinuxMiniProjects.Json

open Bytes (cString)

/-! ### Values -/

inductive Value
  | null
  | bool (b : Bool)
  | number (q : ℚ)
  | string (bytes : List UInt8)
  | array (items : List Value)
  | object (fields : List (List UInt8 × Value))

namespace Value

def item : Value → List UInt8 → Option Value
  | .object fields, name => (fields.find? fun field => cString field.1 = name).map Prod.snd
  | _, _ => none

mutual

def beq : Value → Value → Bool
  | .null, .null => true
  | .bool a, .bool b => a == b
  | .number p, .number q => p == q
  | .string s, .string t => s == t
  | .array vs, .array ws => beqItems vs ws
  | .object fs, .object gs => beqFields fs gs
  | _, _ => false

def beqItems : List Value → List Value → Bool
  | [], [] => true
  | v :: vs, w :: ws => beq v w && beqItems vs ws
  | _, _ => false

def beqFields : List (List UInt8 × Value) → List (List UInt8 × Value) → Bool
  | [], [] => true
  | (m, v) :: fs, (n, w) :: gs => m == n && beq v w && beqFields fs gs
  | _, _ => false

end

mutual

theorem beq_iff : (v w : Value) → (beq v w = true ↔ v = w)
  | .null, w => by cases w <;> simp [beq]
  | .bool a, w => by cases w <;> simp [beq]
  | .number q, w => by cases w <;> simp [beq]
  | .string s, w => by cases w <;> simp [beq]
  | .array vs, w => by cases w <;> simp [beq, beqItems_iff vs]
  | .object fs, w => by cases w <;> simp [beq, beqFields_iff fs]

theorem beqItems_iff : (vs ws : List Value) → (beqItems vs ws = true ↔ vs = ws)
  | [], ws => by cases ws <;> simp [beqItems]
  | v :: vs, ws => by cases ws <;> simp [beqItems, beq_iff v, beqItems_iff vs]

theorem beqFields_iff : (fs gs : List (List UInt8 × Value)) → (beqFields fs gs = true ↔ fs = gs)
  | [], gs => by cases gs <;> simp [beqFields]
  | (m, v) :: fs, gs => by cases gs <;> simp [beqFields, beq_iff v, beqFields_iff fs, Prod.ext_iff]

end

instance : DecidableEq Value := fun v w => decidable_of_iff _ (beq_iff v w)

mutual

def Clean : Value → Prop
  | .null => True
  | .bool _ => True
  | .number _ => True
  | .string bytes => 0 ∉ bytes
  | .array items => CleanItems items
  | .object fields => CleanFields fields

def CleanItems : List Value → Prop
  | [] => True
  | v :: items => v.Clean ∧ CleanItems items

def CleanFields : List (List UInt8 × Value) → Prop
  | [] => True
  | (name, v) :: fields => 0 ∉ name ∧ v.Clean ∧ CleanFields fields

end

mutual

/-- What becomes of an object that is built field by field, if only the
fields with a name in `added` get into it. -/
def prune (added : List UInt8 → Bool) : Value → Value
  | .null => .null
  | .bool b => .bool b
  | .number q => .number q
  | .string bytes => .string bytes
  | .array items => .array items
  | .object fields => .object (pruneFields added fields)

def pruneFields (added : List UInt8 → Bool) :
    List (List UInt8 × Value) → List (List UInt8 × Value)
  | [] => []
  | (name, v) :: fields =>
      if added name then (name, v.prune added) :: pruneFields added fields
      else pruneFields added fields

end

mutual

@[simp] theorem prune_true : (v : Value) → v.prune (fun _ => true) = v
  | .null => rfl
  | .bool _ => rfl
  | .number _ => rfl
  | .string _ => rfl
  | .array _ => rfl
  | .object fields => by rw [prune, pruneFields_true fields]

theorem pruneFields_true :
    (fields : List (List UInt8 × Value)) → pruneFields (fun _ => true) fields = fields
  | [] => rfl
  | (name, v) :: fields => by
      rw [pruneFields, if_pos rfl, prune_true v, pruneFields_true fields]

end

mutual

theorem Clean.prune (added : List UInt8 → Bool) : {v : Value} → v.Clean → (v.prune added).Clean
  | .null, h => h
  | .bool _, h => h
  | .number _, h => h
  | .string _, h => h
  | .array _, h => h
  | .object _, h => CleanFields.prune added h

theorem CleanFields.prune (added : List UInt8 → Bool) :
    {fields : List (List UInt8 × Value)} → CleanFields fields →
      CleanFields (pruneFields added fields)
  | [], h => h
  | (name, v) :: fields, ⟨hname, hv, hfields⟩ => by
      rw [pruneFields]
      split
      · exact ⟨hname, Clean.prune added hv, CleanFields.prune added hfields⟩
      · exact CleanFields.prune added hfields

end

theorem item_cons {key : List UInt8} (hkey : 0 ∉ key) (v : Value)
    (fields : List (List UInt8 × Value)) (name : List UInt8) :
    (Value.object ((key, v) :: fields)).item name =
      if key = name then some v else (Value.object fields).item name := by
  simp only [item, List.find?_cons, Bytes.cString_of_notMem hkey]
  by_cases hname : key = name <;> simp [hname]

theorem item_prune (added : List UInt8 → Bool) {fields : List (List UInt8 × Value)}
    (h : (Value.object fields).Clean) (name : List UInt8) :
    ((Value.object fields).prune added).item name =
      ((Value.object fields).item name).bind fun v =>
        if added name then some (v.prune added) else none := by
  rw [prune]
  induction fields with
  | nil => rfl
  | cons field fields ih =>
      obtain ⟨key, v⟩ := field
      obtain ⟨hkey, -, hfields⟩ := h
      have hrest := ih hfields
      rw [pruneFields, item_cons hkey v fields name]
      by_cases hname : key = name
      · subst hname
        by_cases hadded : added key
        · rw [if_pos hadded, item_cons hkey, if_pos rfl, if_pos rfl]
          simp [hadded]
        · -- later fields of this name are not added either
          rw [if_neg hadded, hrest]
          simp [hadded]
      · rw [if_neg hname, ← hrest]
        split
        · rw [item_cons hkey, if_neg hname]
        · rfl

end Value

/-! ### Libraries -/

def Blank (b : UInt8) : Prop := b ≤ 32 ∨ b = 127

instance : DecidablePred Blank := fun b => inferInstanceAs (Decidable (b ≤ 32 ∨ b = 127))

/-- A JSON library. `print` allocates the text it returns,
`printPreallocated` is given the size of a buffer; `none` is a failure. -/
structure Library where
  parse : List UInt8 → Option Value
  print : Value → Option (List UInt8)
  printPreallocated : Value → ℕ → Option (List UInt8)
  parse_print : ∀ {v text}, v.Clean → print v = some text → parse text = some v
  print_ended : ∀ {v text}, print v = some text → 0 ∉ text
  print_fits : ∀ {v cap text}, printPreallocated v cap = some text →
    print v = some text ∧ text.length < cap
  parse_blank : ∀ {text}, (∀ b ∈ text, Blank b) → parse text = none

namespace Library

theorem parse_nil (L : Library) : L.parse [] = none := L.parse_blank nofun

end Library

/-- Texts and their values, such that the text decides the value. -/
structure Table where
  entries : List (List UInt8 × Value)
  nodup : (entries.map Prod.fst).Nodup
  ended : ∀ e ∈ entries, 0 ∉ e.1
  visible : ∀ e ∈ entries, ∃ b ∈ e.1, ¬ Blank b

namespace Table

variable (T : Table)

def parse (text : List UInt8) : Option Value :=
  (T.entries.find? fun e => e.1 = text).map Prod.snd

def print (v : Value) : Option (List UInt8) :=
  (T.entries.find? fun e => e.2 = v).map Prod.fst

def printPreallocated (v : Value) (cap : ℕ) : Option (List UInt8) :=
  (T.print v).filter fun text => text.length < cap

variable {T}

theorem parse_eq_some {v : Value} {text : List UInt8} :
    T.parse text = some v ↔ (text, v) ∈ T.entries := by
  constructor
  · intro h
    obtain ⟨e, he, rfl⟩ := Option.map_eq_some_iff.mp h
    obtain rfl : e.1 = text := by simpa using List.find?_some he
    exact List.mem_of_find?_eq_some he
  · intro hmem
    obtain ⟨e, he⟩ : ∃ e, T.entries.find? (fun e => e.1 = text) = some e := by
      rw [← Option.isSome_iff_exists, List.find?_isSome]
      exact ⟨_, hmem, by simp⟩
    have htext : e.1 = text := by simpa using List.find?_some he
    have heq : e = (text, v) :=
      List.inj_on_of_nodup_map T.nodup (List.mem_of_find?_eq_some he) hmem htext
    rw [parse, he, heq]
    rfl

theorem mem_of_print {v : Value} {text : List UInt8} (h : T.print v = some text) :
    (text, v) ∈ T.entries := by
  obtain ⟨e, he, rfl⟩ := Option.map_eq_some_iff.mp h
  obtain rfl : e.2 = v := by simpa using List.find?_some he
  exact List.mem_of_find?_eq_some he

def library (T : Table) : Library where
  parse := T.parse
  print := T.print
  printPreallocated := T.printPreallocated
  parse_print := fun _ h => parse_eq_some.mpr (mem_of_print h)
  print_ended := fun h => T.ended _ (mem_of_print h)
  print_fits := fun h => by
    obtain ⟨hprint, hlen⟩ := Option.filter_eq_some_iff.mp h
    exact ⟨hprint, of_decide_eq_true hlen⟩
  parse_blank := fun h => by
    rw [Option.eq_none_iff_forall_ne_some]
    intro v hv
    obtain ⟨b, hb, hvisible⟩ := T.visible _ (parse_eq_some.mp hv)
    exact hvisible (h b hb)

@[simp] theorem library_parse (T : Table) : T.library.parse = T.parse := rfl

end Table

end LinuxMiniProjects.Json
