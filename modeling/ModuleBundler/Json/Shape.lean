import ModuleBundler.Json.Parse
import ModuleBundler.Json.Decode

/-!
# Reading JSON against a shape

A typed reader checks a value's shape while it reads the text, so the first complaint in reading
order wins, and a complaint about the shape names the place where it arose. A value of the wrong
kind is named as in `Json.invalidType`, placed after a scalar and at the bracket of a container.
A record field given twice, a missing field, and a record written as a list with too few items
are complaints of the record itself; a value that fits none of a choice's alternatives is a
complaint of the choice. Such complaints are placed where the enclosing list, map or record
stands once it has tried to close: after blanks, and after its closing bracket when that comes
next (a list also steps over a comma and the blanks after it).

A record may be written as an object, whose unknown fields are skipped (checking their syntax
only, without reading numbers or escapes, at any depth), or as a list of its fields in order,
whose missing trailing fields take their defaults. A field without a default may be absent from
an object only when its shape is optional, and is then null.

What is read is an ordinary JSON value that fits the shape: a record becomes an object with
every field in declaration order.
-/

namespace ModuleBundler

namespace Json

/-- The shape a value must have. -/
inductive Shape where
  /-- Any value. -/
  | any
  /-- A string. -/
  | string
  /-- A boolean. -/
  | boolean
  /-- Null, or a value of the inner shape. -/
  | optional (inner : Shape)
  /-- A list of values of one shape. -/
  | list (item : Shape)
  /-- An object whose values have one shape. -/
  | map (value : Shape)
  /-- A value of the first alternative it fits, tried on the value once it is read. -/
  | oneOf (name : String) (choices : List Shape)
  /-- A record: its fields' names, shapes and defaults, in declaration order. -/
  | record (name : String) (fields : List (String × Shape × Option Json))

namespace Shape

mutual

/-- Whether a value read as it is fits a shape. -/
def fits : Shape → Json → Bool
  | .any, _ => true
  | .string, .str _ => true
  | .boolean, .bool _ => true
  | .optional _, .null => true
  | .optional s, v => fits s v
  | .list s, .arr xs => fitsAll s xs
  | .map s, .obj fs => fitsAll s (fs.map (·.2))
  | .oneOf _ cs, v => fitsSome cs v
  | .record _ fs, .obj given => fitsFields fs given
  | _, _ => false

/-- Whether every value fits the shape. -/
def fitsAll (s : Shape) : List Json → Bool
  | [] => true
  | x :: xs => fits s x && fitsAll s xs

/-- Whether the value fits one of the shapes. -/
def fitsSome : List Shape → Json → Bool
  | [], _ => false
  | s :: ss, v => fits s v || fitsSome ss v

/-- Whether each field is given with a fitting value, or may be left out. -/
def fitsFields : List (String × Shape × Option Json) → List (String × Json) → Bool
  | [], _ => true
  | (name, s, default) :: rest, given =>
    (match given.lookup name with
      | some v => fits s v
      | none => default.isSome || s matches .optional _) && fitsFields rest given

end

end Shape

/-- A complaint of the typed reader: its text, its place once known (the input after it and the
bytes of that input's first character already read), and the input left when it arose. -/
structure Fault where
  message : String
  place : Option (List Char × Nat)
  state : List Char

namespace Fault

/-- A complaint about the text, placed where the reader put it. -/
def ofRead (e : ReadError) : Fault := ⟨e.message, some (e.rest, e.extraBytes), e.rest⟩

/-- A complaint about the shape, not yet placed. -/
def unplaced (message : String) (state : List Char) : Fault := ⟨message, none, state⟩

/-- Place a complaint that has no place yet. -/
def placeAt (f : Fault) (here : List Char) : Fault :=
  match f.place with
  | some _ => f
  | none => { f with place := some (here, 0) }

/-- The complaint's text, with the line and column of its place in the text `cs`. -/
def describe (cs : List Char) (f : Fault) : String :=
  match f.place with
  | some (rest, extra) => ReadError.locate cs ⟨f.message, rest, extra⟩
  | none => f.message

end Fault

/-- Where a list stands after trying to close at `cs`: past blanks, then past a `]`, or past a
comma and the blanks after it. -/
def listCloseAttempt (cs : List Char) : List Char :=
  match skipBlanks cs with
  | ']' :: r => r
  | ',' :: r => skipBlanks r
  | r => r

/-- Where an object stands after trying to close at `cs`: past blanks, then past a `}`. -/
def objectCloseAttempt (cs : List Char) : List Char :=
  match skipBlanks cs with
  | '}' :: r => r
  | r => r

/-- The complaint about a value of the wrong kind, the value next: a scalar is read and the
complaint placed after it; a container is placed at its bracket. -/
def wrongKind (cs : List Char) (expected : String) : Fault :=
  let found (v : Json) (rest : List Char) : Fault := ⟨invalidType v expected, some (rest, 0), rest⟩
  match cs with
  | 'n' :: r =>
    match readIdent "ull".toList r with
    | .ok r' => found .null r'
    | .error e => .ofRead e
  | 't' :: r =>
    match readIdent "rue".toList r with
    | .ok r' => found (.bool true) r'
    | .error e => .ofRead e
  | 'f' :: r =>
    match readIdent "alse".toList r with
    | .ok r' => found (.bool false) r'
    | .error e => .ofRead e
  | '"' :: r =>
    match readStringBody r [] with
    | .ok (s, r') => found (.str s) r'
    | .error e => .ofRead e
  | '[' :: _ => ⟨invalidType (.arr []) expected, some (cs, 0), cs⟩
  | '{' :: _ => ⟨invalidType (.obj []) expected, some (cs, 0), cs⟩
  | c :: _ =>
    if c = '-' ∨ c.isDigit then
      match readNumber cs with
      | .ok (v, r') => found v r'
      | .error e => .ofRead e
    else .ofRead (.atNext "expected value" cs)
  | [] => .ofRead (.atNext "EOF while parsing a value" [])

/-- Skip the rest of a number after its sign, checking its syntax only. -/
def skipNumber (cs : List Char) : Except ReadError (List Char) :=
  let exponent (r : List Char) : Except ReadError (List Char) :=
    let r := match r with
      | '+' :: r' => r'
      | '-' :: r' => r'
      | r' => r'
    match r with
    | c :: r' => if c.isDigit then .ok (r'.dropWhile Char.isDigit) else .error (.afterByte "invalid number" c r')
    | [] => .error (.after "invalid number" [])
  let afterInteger (r : List Char) : Except ReadError (List Char) :=
    match r with
    | '.' :: r' =>
      match r' with
      | c :: _ =>
        if c.isDigit then
          match r'.dropWhile Char.isDigit with
          | e :: r'' => if e = 'e' ∨ e = 'E' then exponent r'' else .ok (e :: r'')
          | [] => .ok []
        else .error (.atNext "invalid number" r')
      | [] => .error (.atNext "invalid number" [])
    | e :: r' => if e = 'e' ∨ e = 'E' then exponent r' else .ok r
    | [] => .ok []
  match cs with
  | '0' :: r =>
    match r with
    | c :: _ => if c.isDigit then .error (.atNext "invalid number" r) else afterInteger r
    | [] => .ok []
  | c :: r =>
    if '1' ≤ c ∧ c ≤ '9' then afterInteger (r.dropWhile Char.isDigit)
    else .error (.afterByte "invalid number" c r)
  | [] => .error (.after "invalid number" [])

/-- Skip the rest of a string after its opening quote, checking escapes without decoding them. -/
def skipString : List Char → Except ReadError (List Char)
  | [] => .error (.after "EOF while parsing a string" [])
  | '"' :: r => .ok r
  | '\\' :: r =>
    match r with
    | [] => .error (.after "EOF while parsing a string" [])
    | c :: r' =>
      if c = '"' ∨ c = '\\' ∨ c = '/' ∨ c = 'b' ∨ c = 'f' ∨ c = 'n' ∨ c = 'r' ∨ c = 't' then skipString r'
      else if c = 'u' then
        match h : readHex4 r' with
        | .ok (_, r'') =>
          have := readHex4_rest h
          skipString r''
        | .error e => .error e
      else .error (.afterByte "invalid escape" c r')
  | c :: r =>
    if c.toNat < 32 then .error (.after "control character (\\u0000-\\u001F) found while parsing a string" (c :: r))
    else skipString r
termination_by cs => cs.length

mutual

/-- Skip one value after optional blanks, checking its syntax only: numbers are not evaluated,
escapes not decoded, and nesting is not limited. -/
def skipValue (fuel : Nat) (cs : List Char) : Except ReadError (List Char) :=
  match fuel with
  | 0 => .error (.atNext "recursion limit exceeded" cs)
  | fuel + 1 =>
    match skipBlanks cs with
    | [] => .error (.atNext "EOF while parsing a value" [])
    | 'n' :: r => readIdent "ull".toList r
    | 't' :: r => readIdent "rue".toList r
    | 'f' :: r => readIdent "alse".toList r
    | '-' :: r => skipNumber r
    | '"' :: r => skipString r
    | '[' :: r => skipItems fuel true r
    | '{' :: r => skipMembers fuel true r
    | r@(c :: _) => if c.isDigit then skipNumber r else .error (.atNext "expected value" r)

/-- Skip the items of a list after its `[`, up to its `]`. -/
def skipItems (fuel : Nat) (first : Bool) (cs : List Char) : Except ReadError (List Char) :=
  match fuel with
  | 0 => .error (.atNext "recursion limit exceeded" cs)
  | fuel + 1 =>
    match skipBlanks cs with
    | ']' :: r => .ok r
    | [] => .error (.atNext "EOF while parsing a list" [])
    | r@(c :: rest) =>
      if first then (skipValue fuel r).bind (skipItems fuel false)
      else if c = ',' then (skipValue fuel rest).bind (skipItems fuel false)
      else .error (.atNext "expected `,` or `]`" r)

/-- Skip the members of an object after its `{`, up to its `}`. -/
def skipMembers (fuel : Nat) (first : Bool) (cs : List Char) : Except ReadError (List Char) :=
  match fuel with
  | 0 => .error (.atNext "recursion limit exceeded" cs)
  | fuel + 1 =>
    let member (r : List Char) : Except ReadError (List Char) :=
      match skipBlanks r with
      | '"' :: r1 =>
        match skipString r1 with
        | .error e => .error e
        | .ok r2 =>
          match skipBlanks r2 with
          | ':' :: r3 => (skipValue fuel r3).bind (skipMembers fuel false)
          | [] => .error (.atNext "EOF while parsing an object" [])
          | r3 => .error (.atNext "expected `:`" r3)
      | [] => .error (.atNext "EOF while parsing an object" [])
      | r1 => .error (.atNext "key must be a string" r1)
    match skipBlanks cs with
    | '}' :: r => .ok r
    | [] => .error (.atNext "EOF while parsing an object" [])
    | r@(c :: rest) =>
      if first then member r
      else if c = ',' then member rest
      else .error (.atNext "expected `,` or `\x7d`" r)

end

/-- The record of the fields read, the others taking their defaults; the first field that has
neither is missing. -/
def completeRecord (fields : List (String × Shape × Option Json)) (given : List (String × Json)) :
    Except String Json :=
  let field : String × Shape × Option Json → Except String (String × Json) := fun (name, s, default) =>
    match given.lookup name, default with
    | some v, _ => .ok (name, v)
    | none, some d => .ok (name, d)
    | none, none =>
      if s matches Shape.optional _ then .ok (name, .null) else .error ("missing field `" ++ name ++ "`")
  (fields.mapM field).map Json.obj

/-- The complaint about a record written as a list of `got` items. -/
def shortRecord (name : String) (got count : Nat) : String :=
  "invalid length " ++ toString got ++ ", expected struct " ++ name ++ " with " ++ toString count ++
    (if count = 1 then " element" else " elements")

/-- The text of a read that failed on its first step. -/
def recursionLimit (cs : List Char) : Fault := .ofRead (.atNext "recursion limit exceeded" cs)

mutual

/-- A value of a shape after optional blanks; `depth` is one more than the containers that may
still open. -/
def readShaped (fuel depth : Nat) (s : Shape) (cs : List Char) : Except Fault (Json × List Char) :=
  match fuel with
  | 0 => .error (recursionLimit cs)
  | fuel + 1 =>
    let cs := skipBlanks cs
    match s with
    | .any =>
      (readValue fuel depth cs).mapError Fault.ofRead
    | .string =>
      match cs with
      | '"' :: r => ((readStringBody r []).map fun (t, r') => (Json.str t, r')).mapError Fault.ofRead
      | _ => .error (wrongKind cs "a string")
    | .boolean =>
      match cs with
      | 't' :: r => ((readIdent "rue".toList r).map fun r' => (Json.bool true, r')).mapError Fault.ofRead
      | 'f' :: r => ((readIdent "alse".toList r).map fun r' => (Json.bool false, r')).mapError Fault.ofRead
      | _ => .error (wrongKind cs "a boolean")
    | .optional inner =>
      match cs with
      | 'n' :: r => ((readIdent "ull".toList r).map fun r' => (Json.null, r')).mapError Fault.ofRead
      | _ => readShaped fuel depth inner cs
    | .list item =>
      match cs with
      | '[' :: r =>
        match depth with
        | d + 2 => (readList fuel (d + 1) item true r []).mapError fun f => f.placeAt (listCloseAttempt f.state)
        | _ => .error (recursionLimit cs)
      | _ => .error (wrongKind cs "a sequence")
    | .map value =>
      match cs with
      | '{' :: r =>
        match depth with
        | d + 2 => (readEntries fuel (d + 1) value true r []).mapError fun f => f.placeAt (objectCloseAttempt f.state)
        | _ => .error (recursionLimit cs)
      | _ => .error (wrongKind cs "a map")
    | .oneOf name choices =>
      match readValue fuel depth cs with
      | .error e => .error (.ofRead e)
      | .ok (v, r) =>
        if Shape.fitsSome choices v then .ok (v, r)
        else .error (.unplaced ("data did not match any variant of untagged enum " ++ name) r)
    | .record name fields =>
      match cs with
      | '{' :: r =>
        match depth with
        | d + 2 => (readMembers fuel (d + 1) fields true r []).mapError fun f => f.placeAt (objectCloseAttempt f.state)
        | _ => .error (recursionLimit cs)
      | '[' :: r =>
        match depth with
        | d + 2 =>
          (readPositional fuel (d + 1) name fields.length fields 0 true r []).mapError fun f =>
            f.placeAt (listCloseAttempt f.state)
        | _ => .error (recursionLimit cs)
      | _ => .error (wrongKind cs ("struct " ++ name))

/-- Items of a list after its `[`, each of one shape, up to the closing `]`. -/
def readList (fuel depth : Nat) (item : Shape) (first : Bool) (cs : List Char) (acc : List Json) :
    Except Fault (Json × List Char) :=
  match fuel with
  | 0 => .error (recursionLimit cs)
  | fuel + 1 =>
    let next (r : List Char) : Except Fault (Json × List Char) :=
      match readShaped fuel depth item r with
      | .error f => .error f
      | .ok (v, r') => readList fuel depth item false r' (v :: acc)
    match skipBlanks cs with
    | [] => .error (.ofRead (.atNext "EOF while parsing a list" []))
    | ']' :: r => .ok (.arr acc.reverse, r)
    | r@(c :: rest) =>
      if first then next r
      else if c = ',' then
        match skipBlanks rest with
        | [] => .error (.ofRead (.atNext "EOF while parsing a value" []))
        | r'@(']' :: _) => .error (.ofRead (.atNext "trailing comma" r'))
        | r' => next r'
      else .error (.ofRead (.atNext "expected `,` or `]`" r))

/-- Entries of a map after its `{`, each value of one shape, up to the closing `}`; of two
entries with one key the later one stays. -/
def readEntries (fuel depth : Nat) (value : Shape) (first : Bool) (cs : List Char)
    (acc : List (String × Json)) : Except Fault (Json × List Char) :=
  match fuel with
  | 0 => .error (recursionLimit cs)
  | fuel + 1 =>
    let entry (r : List Char) : Except Fault (Json × List Char) :=
      match r with
      | '"' :: r1 =>
        match readStringBody r1 [] with
        | .error e => .error (.ofRead e)
        | .ok (key, r2) =>
          match skipBlanks r2 with
          | ':' :: r3 =>
            match readShaped fuel depth value r3 with
            | .error f => .error f
            | .ok (v, r4) => readEntries fuel depth value false r4 ((key, v) :: acc)
          | [] => .error (.ofRead (.atNext "EOF while parsing an object" []))
          | r3 => .error (.ofRead (.atNext "expected `:`" r3))
      | _ => .error (.ofRead (.atNext "key must be a string" r))
    match skipBlanks cs with
    | [] => .error (.ofRead (.atNext "EOF while parsing an object" []))
    | '}' :: r => .ok (sortedObject acc.reverse, r)
    | r@(c :: rest) =>
      if first then entry r
      else if c = ',' then
        match skipBlanks rest with
        | [] => .error (.ofRead (.atNext "EOF while parsing a value" []))
        | r'@('}' :: _) => .error (.ofRead (.atNext "trailing comma" r'))
        | r' => entry r'
      else .error (.ofRead (.atNext "expected `,` or `\x7d`" r))

/-- Members of a record written as an object, after its `{`: known fields read by their shapes,
unknown ones skipped, up to the closing `}`. -/
def readMembers (fuel depth : Nat) (fields : List (String × Shape × Option Json)) (first : Bool)
    (cs : List Char) (given : List (String × Json)) : Except Fault (Json × List Char) :=
  match fuel with
  | 0 => .error (recursionLimit cs)
  | fuel + 1 =>
    let member (r : List Char) : Except Fault (Json × List Char) :=
      match r with
      | '"' :: r1 =>
        match readStringBody r1 [] with
        | .error e => .error (.ofRead e)
        | .ok (key, r2) =>
          match fields.find? (·.1 == key) with
          | some (_, s, _) =>
            if given.any (·.1 == key) then .error (.unplaced ("duplicate field `" ++ key ++ "`") r2)
            else
              match skipBlanks r2 with
              | ':' :: r3 =>
                match readShaped fuel depth s r3 with
                | .error f => .error f
                | .ok (v, r4) => readMembers fuel depth fields false r4 (given ++ [(key, v)])
              | [] => .error (.ofRead (.atNext "EOF while parsing an object" []))
              | r3 => .error (.ofRead (.atNext "expected `:`" r3))
          | none =>
            match skipBlanks r2 with
            | ':' :: r3 =>
              match skipValue fuel r3 with
              | .error e => .error (.ofRead e)
              | .ok r4 => readMembers fuel depth fields false r4 given
            | [] => .error (.ofRead (.atNext "EOF while parsing an object" []))
            | r3 => .error (.ofRead (.atNext "expected `:`" r3))
      | _ => .error (.ofRead (.atNext "key must be a string" r))
    match skipBlanks cs with
    | [] => .error (.ofRead (.atNext "EOF while parsing an object" []))
    | r@('}' :: r') =>
      match completeRecord fields given with
      | .ok v => .ok (v, r')
      | .error m => .error (.unplaced m r)
    | r@(c :: rest) =>
      if first then member r
      else if c = ',' then
        match skipBlanks rest with
        | [] => .error (.ofRead (.atNext "EOF while parsing a value" []))
        | r'@('}' :: _) => .error (.ofRead (.atNext "trailing comma" r'))
        | r' => member r'
      else .error (.ofRead (.atNext "expected `,` or `\x7d`" r))

/-- Fields of a record written as a list, after its `[`, in declaration order: `index` of the
`count` fields are read; once the list ends every field left takes its default, and the list
must end after the last field. -/
def readPositional (fuel depth : Nat) (name : String) (count : Nat)
    (fields : List (String × Shape × Option Json)) (index : Nat) (first : Bool) (cs : List Char)
    (acc : List (String × Json)) : Except Fault (Json × List Char) :=
  match fuel with
  | 0 => .error (recursionLimit cs)
  | fuel + 1 =>
    match fields with
    | [] =>
      match skipBlanks cs with
      | ']' :: r => .ok (.obj acc.reverse, r)
      | ',' :: r =>
        match skipBlanks r with
        | r'@(']' :: _) => .error (.ofRead (.atNext "trailing comma" r'))
        | r' => .error (.ofRead (.atNext "trailing characters" r'))
      | [] => .error (.ofRead (.atNext "EOF while parsing a list" []))
      | r => .error (.ofRead (.atNext "trailing characters" r))
    | (fname, s, default) :: more =>
      let next (r : List Char) : Except Fault (Json × List Char) :=
        match readShaped fuel depth s r with
        | .error f => .error f
        | .ok (v, r') => readPositional fuel depth name count more (index + 1) false r' ((fname, v) :: acc)
      match skipBlanks cs with
      | [] => .error (.ofRead (.atNext "EOF while parsing a list" []))
      | r@(']' :: _) =>
        match default with
        | some d => readPositional fuel depth name count more (index + 1) first r ((fname, d) :: acc)
        | none => .error (.unplaced (shortRecord name index count) r)
      | r@(c :: rest) =>
        if first then next r
        else if c = ',' then
          match skipBlanks rest with
          | [] => .error (.ofRead (.atNext "EOF while parsing a value" []))
          | r'@(']' :: _) => .error (.ofRead (.atNext "trailing comma" r'))
          | r' => next r'
        else .error (.ofRead (.atNext "expected `,` or `]`" r))

end

/-- Read a whole text as one value of a shape; nothing but blanks may follow it. -/
def readAs (shape : Shape) (text : String) : Except String Json :=
  let cs := text.toList
  match readShaped (4 * cs.length + 64) nestingLimit shape cs with
  | .error f => .error (f.describe cs)
  | .ok (v, rest) =>
    match skipBlanks rest with
    | [] => .ok v
    | r => .error ((ReadError.atNext "trailing characters" r).locate cs)

end Json

end ModuleBundler
