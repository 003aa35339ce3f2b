import LinuxMiniProjects.Lib.Json
import Mathlib.Tactic

/-!
The printer of `cJSON.c`.

The functions of the printer share a buffer. Each of them asks for room
with `ensure` before it writes, and the buffer grows if it may. Some leave
the offset where it was and end what they have written with a zero, so
that `update_offset` finds the end; others move the offset themselves.

What `malloc` and `realloc` do is part of the buffer. They may fail at any
call, and after the first failure nothing is allocated any more, so it is
enough to say how many calls succeed. `live` counts the blocks that are
allocated and not freed, and `fault` stands for an access outside of a
block. The bytes of a new block are whatever `junk` says, by the size of
the block and the offset.
-/

namespace LinuxMiniProjects.CJson

open Bytes

/-! ### Items -/

structure Doubles (D : Type) where
  /-- Neither `isnan` nor `isinf`. -/
  isFinite : D → Bool
  /-- The conversion to `int`, with saturation. -/
  valueint : D → ℤ
  /-- The conversion from `int`. -/
  ofInt : ℤ → D
  beq : D → D → Bool
  compareDouble : D → D → Bool
  /-- `sprintf` with the formats `%1.15g` and `%1.17g`. -/
  sprintf15 : D → List UInt8
  sprintf17 : D → List UInt8
  /-- `sscanf` with the format `%lg`. -/
  sscanf : List UInt8 → Option D

variable {D : Type}

/-- `cJSON`, as a tree. `valueint` is a function of `valuedouble`. -/
inductive Item (D : Type)
  | null
  | bool (b : Bool)
  | number (valuedouble : D)
  | string (valuestring : List UInt8)
  | array (child : List (Item D))
  | object (child : List (List UInt8 × Item D))

def nestingLimit : ℕ := 1000

def quote : UInt8 := 34

def backslash : UInt8 := 92

def letterU : UInt8 := 117

/-! ### The buffer -/

def intMax : ℕ := 2147483647

/-- `printbuffer`, with the state of the allocator. The length is that of the
list, and there is no list after a failed `realloc`. -/
structure PrintBuffer where
  buffer : Option (List UInt8)
  offset : ℕ
  depth : ℕ
  noalloc : Bool
  format : Bool
  mallocs : Option ℕ
  live : ℤ

inductive Out
  | fault
  | fail (p : PrintBuffer)
  | ok (p : PrintBuffer)

def Out.andThen (out : Out) (f : PrintBuffer → Out) : Out :=
  match out with
  | fault => fault
  | fail p => fail p
  | ok p => f p

abbrev Junk := ℕ → ℕ → UInt8

namespace PrintBuffer

def reallocate (junk : Junk) (p : PrintBuffer) (buffer : List UInt8) (newsize : ℕ) : Out :=
  let newbuffer :=
    buffer ++ (List.range' buffer.length (newsize - buffer.length)).map (junk newsize)
  match p.mallocs with
  | none => .ok { p with buffer := some newbuffer }
  | some 0 => .fail { p with buffer := none, live := p.live - 1 }
  | some (n + 1) => .ok { p with buffer := some newbuffer, mallocs := some n }

def ensure (junk : Junk) (p : PrintBuffer) (needed : ℕ) : Out :=
  match p.buffer with
  | none => .fail p
  | some buffer =>
      if 0 < buffer.length ∧ buffer.length ≤ p.offset then .fail p
      else if intMax < needed then .fail p
      else
        let needed := needed + (p.offset + 1)
        if needed ≤ buffer.length then .ok p
        else if p.noalloc then .fail p
        else if intMax / 2 < needed then
          if needed ≤ intMax then p.reallocate junk buffer intMax else .fail p
        else p.reallocate junk buffer (needed * 2)

def write (p : PrintBuffer) (pointer : ℕ) (bytes : List UInt8) : Out :=
  match p.buffer with
  | none => .fault
  | some buffer =>
      if pointer + bytes.length ≤ buffer.length then
        .ok { p with
          buffer := some (buffer.take pointer ++ bytes ++ buffer.drop (pointer + bytes.length)) }
      else .fault

def advance (p : PrintBuffer) (n : ℕ) : PrintBuffer := { p with offset := p.offset + n }

/-- `update_offset`, with the `strlen` in it. -/
def updateOffset (p : PrintBuffer) : Out :=
  match p.buffer with
  | none => .ok p
  | some buffer =>
      if 0 ∈ buffer.drop p.offset then
        .ok (p.advance (cString (buffer.drop p.offset)).length)
      else .fault

/-- The step that all printing is made of: `ensure`, some bytes at the
offset, and the offset behind the first `n` of them. -/
def emit (junk : Junk) (needed : ℕ) (bytes : List UInt8) (n : ℕ) (p : PrintBuffer) : Out :=
  (p.ensure junk needed).andThen fun p =>
    (p.write p.offset bytes).andThen fun p => .ok (p.advance n)

end PrintBuffer

/-! ### Numbers -/

def decimal (i : ℤ) : List UInt8 :=
  (if i < 0 then [45] else []) ++
    (Nat.toDigits 10 i.natAbs).map fun c => UInt8.ofNat c.toNat

/-- What `print_number` writes for a number. With `%1.15g` it looks whether
the number comes back. -/
def numberText (F : Doubles D) (d : D) : List UInt8 :=
  if F.isFinite d = false then ofString "null"
  else if F.beq d (F.ofInt (F.valueint d)) then decimal (F.valueint d)
  else
    match F.sscanf (F.sprintf15 d) with
    | some test => if F.compareDouble test d then F.sprintf15 d else F.sprintf17 d
    | none => F.sprintf17 d

/-- `print_number`. The text is printed into an array of 26 bytes first. -/
def printNumber (F : Doubles D) (junk : Junk) (d : D) (p : PrintBuffer) : Out :=
  let text := numberText F d
  if 25 < text.length then .fault
  else p.emit junk (text.length + 1) (text ++ [0]) text.length

/-! ### Strings -/

def escapeLetter (c : UInt8) : Option UInt8 :=
  if c = backslash then some backslash
  else if c = quote then some quote
  else if c = 8 then some 98
  else if c = 12 then some 102
  else if c = 10 then some 110
  else if c = 13 then some 114
  else if c = 9 then some 116
  else none

def escapeCharacters (c : UInt8) : ℕ :=
  if (escapeLetter c).isSome then 1 else if c < 32 then 5 else 0

def hexChar (n : ℕ) : UInt8 := if n < 10 then UInt8.ofNat (48 + n) else UInt8.ofNat (87 + n)

def utf16Escape (c : UInt8) : List UInt8 :=
  [letterU, 48, 48, hexChar (c.toNat / 16), hexChar (c.toNat % 16)]

/-- The loop of `print_string_ptr` that copies the string. What `sprintf`
writes has a zero at the end, which is overwritten later. -/
def escapeLoop (p : PrintBuffer) (pointer : ℕ) : List UInt8 → Out
  | [] => .ok p
  | c :: input =>
      if 31 < c ∧ c ≠ quote ∧ c ≠ backslash then
        (p.write pointer [c]).andThen fun p => escapeLoop p (pointer + 1) input
      else
        (p.write pointer [backslash]).andThen fun p =>
          match escapeLetter c with
          | some letter =>
              (p.write (pointer + 1) [letter]).andThen fun p =>
                escapeLoop p (pointer + 2) input
          | none =>
              (p.write (pointer + 1) (utf16Escape c ++ [0])).andThen fun p =>
                escapeLoop p (pointer + 6) input

/-- `print_string_ptr`. A string is what is in front of the first zero. -/
def printString (junk : Junk) (s : List UInt8) (p : PrintBuffer) : Out :=
  let input := cString s
  let escapes := (input.map escapeCharacters).sum
  let outputLength := input.length + escapes
  (p.ensure junk (outputLength + 3)).andThen fun p =>
    if escapes = 0 then p.write p.offset (quote :: input ++ [quote, 0])
    else
      (p.write p.offset [quote]).andThen fun p =>
        (escapeLoop p (p.offset + 1) input).andThen fun p =>
          p.write (p.offset + outputLength + 1) [quote, 0]

/-! ### Arrays and objects -/

def printWord (junk : Junk) (word : List UInt8) (p : PrintBuffer) : Out :=
  p.emit junk (word.length + 1) (word ++ [0]) 0

def printIndent (junk : Junk) (p : PrintBuffer) : Out :=
  if p.format then p.emit junk p.depth (List.replicate p.depth 9) p.depth else .ok p

def elementSeparator (format : Bool) : List UInt8 := if format then [44, 32] else [44]

def memberSeparator (format next : Bool) : List UInt8 :=
  (if next then [44] else []) ++ (if format then [10] else [])

def colon (format : Bool) : List UInt8 := if format then [58, 9] else [58]

def openBrace (format : Bool) : List UInt8 := if format then [123, 10] else [123]

def printCloseBrace (junk : Junk) (p : PrintBuffer) : Out :=
  let indent := if p.format then List.replicate (p.depth - 1) 9 else []
  p.emit junk (if p.format then p.depth + 1 else 2) (indent ++ [125, 0]) 0

mutual

/-- `print_value`, with `print_array` and `print_object`. -/
def printValue (F : Doubles D) (junk : Junk) : Item D → PrintBuffer → Out
  | .null, p => printWord junk (ofString "null") p
  | .bool false, p => printWord junk (ofString "false") p
  | .bool true, p => printWord junk (ofString "true") p
  | .number d, p => printNumber F junk d p
  | .string s, p => printString junk s p
  | .array vs, p =>
      if nestingLimit ≤ p.depth then .fail p
      else
        (p.emit junk 1 [91] 1).andThen fun p =>
          (printElements F junk vs { p with depth := p.depth + 1 }).andThen fun p =>
            (p.emit junk 2 [93, 0] 0).andThen fun p => .ok { p with depth := p.depth - 1 }
  | .object ms, p =>
      if nestingLimit ≤ p.depth then .fail p
      else
        let brace := openBrace p.format
        (p.emit junk (brace.length + 1) brace brace.length).andThen fun p =>
          (printMembers F junk ms { p with depth := p.depth + 1 }).andThen fun p =>
            (printCloseBrace junk p).andThen fun p => .ok { p with depth := p.depth - 1 }

def printElements (F : Doubles D) (junk : Junk) : List (Item D) → PrintBuffer → Out
  | [], p => .ok p
  | v :: vs, p =>
      (printValue F junk v p).andThen fun p =>
        p.updateOffset.andThen fun p =>
          let separator := elementSeparator p.format
          (if vs.isEmpty then .ok p
            else p.emit junk (separator.length + 1) (separator ++ [0]) separator.length).andThen
            fun p => printElements F junk vs p

def printMembers (F : Doubles D) (junk : Junk) : List (List UInt8 × Item D) → PrintBuffer → Out
  | [], p => .ok p
  | (name, v) :: ms, p =>
      (printIndent junk p).andThen fun p =>
        (printString junk name p).andThen fun p =>
          p.updateOffset.andThen fun p =>
            (p.emit junk (colon p.format).length (colon p.format) (colon p.format).length).andThen
              fun p =>
                (printValue F junk v p).andThen fun p =>
                  p.updateOffset.andThen fun p =>
                    let separator := memberSeparator p.format !ms.isEmpty
                    (p.emit junk (separator.length + 1) (separator ++ [0])
                      separator.length).andThen fun p => printMembers F junk ms p

end

/-! ### The entry points -/

/-- What a call of the printer leaves behind: the text, and the blocks. -/
structure Rendered where
  text : Option (List UInt8)
  live : ℤ
deriving DecidableEq

def printFailed (p : PrintBuffer) : Rendered :=
  ⟨none, if p.buffer.isSome then p.live - 1 else p.live⟩

def finishPrint (p : PrintBuffer) (buffer : List UInt8) : Rendered :=
  if p.mallocs = some 0 then printFailed p else ⟨some (buffer.take (p.offset + 1)), p.live⟩

def printBuffered (F : Doubles D) (junk : Junk) (v : Item D) (p : PrintBuffer) :
    Option Rendered :=
  match (printValue F junk v p).andThen PrintBuffer.updateOffset with
  | .fault => none
  | .fail p => some (printFailed p)
  | .ok p => p.buffer.map (finishPrint p)

def defaultBuffer (junk : Junk) (mallocs : Option ℕ) (live : ℤ) (format : Bool) : PrintBuffer :=
  ⟨some ((List.range 256).map (junk 256)), 0, 0, false, format, mallocs, live + 1⟩

def print (F : Doubles D) (junk : Junk) (mallocs : Option ℕ) (live : ℤ) (format : Bool)
    (v : Item D) : Option Rendered :=
  match mallocs with
  | none => printBuffered F junk v (defaultBuffer junk none live format)
  | some 0 => some ⟨none, live⟩
  | some (n + 1) => printBuffered F junk v (defaultBuffer junk (some n) live format)

/-- `cJSON_PrintPreallocated`: whether it has succeeded, and the buffer. -/
def printPreallocated (F : Doubles D) (junk : Junk) (v : Item D) (buffer : List UInt8)
    (format : Bool) : Option (Bool × List UInt8) :=
  match printValue F junk v ⟨some buffer, 0, 0, true, format, none, 0⟩ with
  | .fault => none
  | .fail p => p.buffer.map fun b => (false, b)
  | .ok p => p.buffer.map fun b => (true, b)

end LinuxMiniProjects.CJson
