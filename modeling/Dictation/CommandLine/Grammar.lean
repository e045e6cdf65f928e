import Dictation.Text.Digit
import Dictation.Text.Quoted

/-!
# Reading the words of a command line

A grammar has switches, with or without a value, and at most one operand.  Words that start with a
dash are switches; a long name may be cut short as long as it is clear, a value may follow an equals
sign, and short switches without a value may be written together.  After the word `--` nothing is a
switch.  A word with a space in it, or one that looks like a negative number, is no switch.

* `Grammar.mark`   what a word is, looked at alone;
* `Grammar.read`   the switches given, the words of the operand, and the words nobody wanted; the
  bound on its rounds is never used up (`readMarked_eq_of_lt`).
-/

namespace Dictation.CommandLine

/-- a word as it was given; bytes that are no text stay as they are -/
abbrev Word := List Symbol

def word (s : String) : Word := s.toList.map .char

/-- a word as text; what is no character reads as U+FFFD -/
def Word.text (w : Word) : Text :=
  w.map fun
    | .char c => c
    | .lone _ => Char.ofNat 0xfffd

def dash : Symbol := .char '-'
def equals : Symbol := .char '='

inductive ValueKind where
  | flag
  | text
  | int
deriving DecidableEq, Repr

structure Switch where
  /-- all its names, the short one first -/
  names : List String
  kind : ValueKind
deriving DecidableEq, Repr

inductive Operand where
  | nothing
  | required (name : String)
  | optional (name : String)
  /-- one of the choices; it takes all words that follow it too -/
  | choice (name : String) (choices : List String)
deriving DecidableEq, Repr

structure Grammar where
  program : String
  switches : List Switch
  operand : Operand

/-! ## what stops a reading -/

inductive Halt where
  | help
  | ambiguous (given : Word) (names : List String)
  | valueMissing (switch : Switch)
  | valueUnwanted (switch : Switch) (value : Word)
  | notInt (switch : Switch) (value : Word)
  | notAmong (operand : String) (value : Word) (choices : List String)
  | operandMissing (operand : String)
  | unrecognized (words : List Word)
deriving DecidableEq, Repr

def joined (sep : String) (ws : List String) : Text :=
  Text.joinWith sep.toList (ws.map String.toList)

def Switch.title (s : Switch) : Text := joined "/" s.names

def Halt.message : Halt → Text
  | help => []
  | ambiguous w names =>
    "ambiguous option: ".toList ++ Word.text w ++ " could match ".toList ++ joined ", " names
  | valueMissing s => "argument ".toList ++ s.title ++ ": expected one argument".toList
  | valueUnwanted s v =>
    "argument ".toList ++ s.title ++ ": ignored explicit argument ".toList ++ Quoted.ofSymbols v
  | notInt s v =>
    "argument ".toList ++ s.title ++ ": invalid int value: ".toList ++ Quoted.ofSymbols v
  | notAmong o v choices =>
    "argument ".toList ++ o.toList ++ ": invalid choice: ".toList ++ Quoted.ofSymbols v
      ++ " (choose from ".toList
      ++ Text.joinWith ", ".toList (choices.map fun c => Quoted.ofText c.toList) ++ [')']
  | operandMissing o => "the following arguments are required: ".toList ++ o.toList
  | unrecognized ws =>
    "unrecognized arguments: ".toList ++ Text.joinWith [' '] (ws.map Word.text)

/-! ## one word -/

/-- a switch as it is written: by which name, and the value in the same word, after an equals sign
or right after a short name -/
structure Use where
  switch : Switch
  name : String
  value : Option (Bool × Word) := none

inductive Mark where
  | operand
  /-- the first `--` -/
  | divider
  | switch (use : Use)
  | unknown

def Mark.isOption : Mark → Bool
  | .switch _ => true
  | .unknown => true
  | _ => false

def isDigit : Symbol → Bool
  | .char c => (digitOf? c).isSome
  | .lone _ => false

/-- a dash and digits, perhaps with a point before the last of them; a line may end after them -/
def looksNegative (w : Word) : Bool :=
  let w := if w.getLast? == some (.char '\n') then w.dropLast else w
  match w with
  | .char '-' :: r =>
    match r.dropWhile isDigit with
    | [] => !r.isEmpty
    | .char '.' :: fraction => !fraction.isEmpty && fraction.all isDigit
    | _ => false
  | _ => false

/-- the word before its first equals sign, and the value after it -/
def splitEquals (w : Word) : Word × Option Word :=
  let name := w.takeWhile (· != equals)
  (name, if name.length < w.length then some (w.drop (name.length + 1)) else none)

namespace Grammar

/-- every name with its switch -/
def names (g : Grammar) : List (String × Switch) :=
  g.switches.flatMap fun s => s.names.map fun n => (n, s)

def named? (g : Grammar) (w : Word) : Option (String × Switch) :=
  g.names.find? fun n => word n.1 == w

/-- the readings of a word that is no full name -/
def guesses (g : Grammar) (w : Word) : List Use :=
  if w[1]? == some dash then
    let (name, value) := splitEquals w
    (g.names.filter fun n => name.isPrefixOf (word n.1)).map fun n =>
      ⟨n.2, n.1, value.map fun v => (true, v)⟩
  else
    g.names.filterMap fun n =>
      if word n.1 == w.take 2 then some ⟨n.2, n.1, some (false, w.drop 2)⟩
      else if w.isPrefixOf (word n.1) then some ⟨n.2, n.1, none⟩
      else none

/-- a word that is more than a dash and starts with one, and is no full name -/
def markLonger (g : Grammar) (w : Word) : Except Halt Mark :=
  match splitEquals w with
  | (name, some value) =>
    match g.named? name with
    | some (n, s) => .ok (.switch ⟨s, n, some (true, value)⟩)
    | none => guess
  | _ => guess
where
  guess : Except Halt Mark :=
    match g.guesses w with
    | [] => .ok (if looksNegative w || w.contains (.char ' ') then .operand else .unknown)
    | [use] => .ok (.switch use)
    | uses => .error (.ambiguous w (uses.map (·.name)))

def mark (g : Grammar) (w : Word) : Except Halt Mark :=
  match w with
  | [] => .ok .operand
  | c :: r =>
    if c != dash then .ok .operand
    else
      match g.named? w with
      | some (n, s) => .ok (.switch ⟨s, n, none⟩)
      | none => if r.isEmpty then .ok .operand else g.markLonger w

def marks (g : Grammar) : List Word → Except Halt (List (Word × Mark))
  | [] => .ok []
  | w :: ws =>
    if w == word "--" then .ok ((w, .divider) :: ws.map fun w => (w, .operand))
    else
      match g.mark w with
      | .error h => .error h
      | .ok m => (marks g ws).map ((w, m) :: ·)

end Grammar

/-! ## all words -/

structure Reading where
  /-- the switches given, by their last name, with their values -/
  given : List (String × Word) := []
  operand : Option (List Word) := none
  extras : List Word := []

namespace Reading

def give (r : Reading) (s : Switch) (value : Word) : Reading :=
  { r with given := r.given ++ [(s.names.getLastD "", value)] }

def spare (r : Reading) (ws : List Word) : Reading := { r with extras := r.extras ++ ws }

def has (r : Reading) (name : String) : Bool := r.given.any (·.1 == name)

def values (r : Reading) (name : String) : List Word :=
  (r.given.filter (·.1 == name)).map (·.2)

end Reading

abbrev Marked := List (Word × Mark)

/-- a switch and its value -/
def take (r : Reading) (s : Switch) (value : Word) : Except Halt Reading :=
  if s.kind = .int && (Word.text value).int?.isNone then .error (.notInt s value)
  else .ok (r.give s value)

/-- a switch without a value in its own word: the next word must be one if it wants a value -/
def takeBare (r : Reading) (s : Switch) (rest : Marked) : Except Halt (Reading × Marked) :=
  if s.kind = .flag then (take r s []).map fun r => (r, rest)
  else
    match rest with
    | (w, .operand) :: rest => (take r s w).map fun r => (r, rest)
    | _ => .error (.valueMissing s)

/-- a switch with more characters after it in its own word: the value, or more short switches -/
def takeAttached (g : Grammar) (r : Reading) (s : Switch) (name : String) (afterEquals : Bool)
    (value : Word) (rest : Marked) : Except Halt (Reading × Marked) :=
  if s.kind ≠ .flag then (take r s value).map fun r => (r, rest)
  else
    match value with
    | [] => .error (.valueUnwanted s value)
    | c :: more =>
      if name.startsWith "--" || afterEquals || c == dash then .error (.valueUnwanted s value)
      else
        match take r s [] with
        | .error h => .error h
        | .ok r =>
          match g.named? [dash, c] with
          | none => .ok (r.spare [dash :: value], rest)
          | some (n, s') =>
            match more with
            | [] => takeBare r s' rest
            | d :: more' =>
              if d == equals then takeAttached g r s' n true more' rest
              else takeAttached g r s' n false (d :: more') rest
termination_by value.length

/-- all switches of one word; who asks for help gets it once the word has been read -/
def takeUse (g : Grammar) (r : Reading) (u : Use) (rest : Marked) :
    Except Halt (Reading × Marked) :=
  let taken :=
    match u.value with
    | none => takeBare r u.switch rest
    | some (afterEquals, value) => takeAttached g r u.switch u.name afterEquals value rest
  match taken with
  | .ok (r, rest) => if r.has "--help" then .error .help else .ok (r, rest)
  | .error h => .error h

/-- the words that the operand takes from the start, without dividers, and the words left; none if
it cannot start here -/
def operandWords? (operand : Operand) (ms : Marked) : Option (List Word × Marked) :=
  let isDivider := fun (m : Word × Mark) =>
    match m.2 with
    | .divider => true
    | _ => false
  let body := ms.dropWhile isDivider
  match operand, body with
  | .required _, (w, .operand) :: rest => some ([w], rest.dropWhile isDivider)
  | .optional _, (w, .operand) :: rest => some ([w], rest.dropWhile isDivider)
  | .optional _, _ => some ([], body)
  | .choice _ _, (_, .operand) :: _ => some (ms.map (·.1), [])
  | _, _ => none

/-- the operand from the start of the words, if it is still to come -/
def takeOperand (g : Grammar) (r : Reading) (ms : Marked) : Reading × Marked :=
  match r.operand, operandWords? g.operand ms with
  | none, some (ws, rest) => ({ r with operand := some ws }, rest)
  | _, _ => (r, ms)

/-- the operand and the switches in turn; every round takes at least one word of `bound` -/
def readMarked (g : Grammar) : (bound : Nat) → Reading → Marked → Except Halt Reading
  | 0, r, ms => .ok (r.spare (ms.map (·.1)))
  | bound + 1, r, ms =>
    let front := ms.takeWhile fun m => !m.2.isOption
    match ms.dropWhile fun m => !m.2.isOption with
    | [] =>
      let (r, rest) := takeOperand g r ms
      .ok (r.spare (rest.map (·.1)))
    | option :: rest =>
      let (r', left) := if front.isEmpty then (r, ms) else takeOperand g r ms
      if left.length < ms.length then readMarked g bound r' left
      else
        let r := r.spare (front.map (·.1))
        match option.2 with
        | .switch use =>
          match takeUse g r use rest with
          | .error h => .error h
          | .ok (r, rest) => readMarked g bound r rest
        | _ => readMarked g bound (r.spare [option.1]) rest

section
variable {g : Grammar} {r r' : Reading} {rest left : Marked}

theorem eq_of_map_pair {taken : Except Halt Reading}
    (h : (taken.map fun r => (r, rest)) = .ok (r', left)) : left = rest := by
  cases taken with
  | error _ => cases h
  | ok _ =>
    cases h
    rfl

theorem length_of_takeBare {s : Switch} (h : takeBare r s rest = .ok (r', left)) :
    left.length ≤ rest.length := by
  unfold takeBare at h
  split at h
  · exact Nat.le_of_eq (congrArg List.length (eq_of_map_pair h))
  · split at h
    · rw [eq_of_map_pair h]
      exact Nat.le_succ _
    · cases h

theorem length_of_takeAttached {s : Switch} {name : String} {afterEquals : Bool} {value : Word}
    (h : takeAttached g r s name afterEquals value rest = .ok (r', left)) :
    left.length ≤ rest.length := by
  fun_induction takeAttached g r s name afterEquals value rest
  case case1 => exact Nat.le_of_eq (congrArg List.length (eq_of_map_pair h))
  case case2 | case3 | case4 => cases h
  case case5 =>
    cases h
    exact Nat.le_refl _
  case case6 => exact length_of_takeBare h
  case case7 ih | case8 ih => exact ih h

theorem length_of_takeUse {u : Use} (h : takeUse g r u rest = .ok (r', left)) :
    left.length ≤ rest.length := by
  unfold takeUse at h
  dsimp only at h
  split at h
  · next htaken =>
    split at h
    · cases h
    · cases h
      split at htaken
      · exact length_of_takeBare htaken
      · exact length_of_takeAttached htaken
  · cases h

/-- every round takes at least one word, so no bound cuts a reading short that is larger than the
number of words -/
theorem readMarked_eq_of_lt {bound bound' : Nat} {ms : Marked} (h : ms.length < bound)
    (h' : ms.length < bound') : readMarked g bound r ms = readMarked g bound' r ms := by
  induction bound generalizing bound' r ms with
  | zero => cases h
  | succ bound ih =>
    cases bound' with
    | zero => cases h'
    | succ bound' =>
      rw [readMarked, readMarked]
      split
      · rfl
      · next option rest hrest =>
        have hlt : rest.length < ms.length := by
          have hle := (List.dropWhile_sublist (fun m => !m.2.isOption) (l := ms)).length_le
          rwa [hrest] at hle
        dsimp only
        -- the operand before the switch, if there is one
        generalize (if (ms.takeWhile fun m => !m.2.isOption).isEmpty then (r, ms)
          else takeOperand g r ms) = taken
        split
        · exact ih (by omega) (by omega)
        · split
          · split
            · rfl
            · next hrest' =>
              have hle := length_of_takeUse hrest'
              exact ih (by omega) (by omega)
          · exact ih (by omega) (by omega)

end

def Operand.check (o : Operand) (taken : Option (List Word)) : Except Halt Unit :=
  match o, taken with
  | .required name, none => .error (.operandMissing name)
  | .choice name _, none => .error (.operandMissing name)
  | .choice name choices, some (w :: _) =>
    if choices.any fun c => word c == w then .ok () else .error (.notAmong name w choices)
  | _, _ => .ok ()

def Grammar.read (g : Grammar) (ws : List Word) : Except Halt Reading :=
  match g.marks ws with
  | .error h => .error h
  | .ok ms =>
    match readMarked g (ms.length + 1) {} ms with
    | .error h => .error h
    | .ok r => (g.operand.check r.operand).map fun _ => r

end Dictation.CommandLine
