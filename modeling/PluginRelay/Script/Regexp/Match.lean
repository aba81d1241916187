import PluginRelay.Script.Regexp.Basic

/-!
# Matching regular expressions

The matcher tries alternatives in order and goes on with what comes after: a continuation stands for the
rest of the expression. One number bounds how deep patterns nest and how often loops go round.
-/
namespace PluginRelay.Script.Regexp

/-- How far a match has come, and what the groups have matched. -/
structure Progress where
  position : Nat
  groups : Array (Option (Nat × Nat))
  deriving Repr, Inhabited

/-- The text and the rules for reading it. -/
structure Subject where
  text : Units
  flags : Flags

namespace Subject

/-- The character that starts at a place, and where it ends. -/
def next? (s : Subject) (i : Nat) : Option (Nat × Nat) :=
  match s.text[i]? with
  | none => none
  | some u =>
    if s.flags.unicode && Units.isLead u then
      match s.text[i + 1]? with
      | some v => if Units.isTrail v then some (Units.pair u v, i + 2) else some (u.toNat, i + 1)
      | none => some (u.toNat, i + 1)
    else some (u.toNat, i + 1)

/-- The character that ends at a place, and where it starts. -/
def previous? (s : Subject) (i : Nat) : Option (Nat × Nat) :=
  match i with
  | 0 => none
  | j + 1 =>
    match s.text[j]? with
    | none => none
    | some u =>
      if s.flags.unicode && Units.isTrail u && 0 < j then
        match s.text[j - 1]? with
        | some v => if Units.isLead v then some (Units.pair v u, j - 1) else some (u.toNat, j)
        | none => some (u.toNat, j)
      else some (u.toNat, j)

def step? (s : Subject) (isBack : Bool) (i : Nat) : Option (Nat × Nat) :=
  if isBack then s.previous? i else s.next? i

/-- Letters that differ in case only have one canonical form. -/
def canonical (s : Subject) (n : Nat) : Nat :=
  if !s.flags.ignoreCase then n
  else if s.flags.unicode then Casing.lower n
  else
    match Casing.upperAll n with
    | [m] => if 128 ≤ n && m < 128 then n else m
    | _ => n

def sameCharacter (s : Subject) (a b : Nat) : Bool := s.canonical a = s.canonical b

def inSet (s : Subject) (items : List ClassItem) (n : Nat) : Bool :=
  items.any (·.holds n) || (s.flags.ignoreCase &&
    (items.any (·.holds (Casing.lower n)) || items.any (·.holds (Casing.upper n))))

def isWordAt (s : Subject) (i : Nat) : Bool := (s.text[i]?).any fun u => isWord u.toNat

def isBoundary (s : Subject) (i : Nat) : Bool :=
  (0 < i && s.isWordAt (i - 1)) != s.isWordAt i

def isLineStart (s : Subject) (i : Nat) : Bool :=
  i = 0 || (s.flags.multiline && (s.text[i - 1]?).any fun u => isLineEnd u.toNat)

def isAtLineEnd (s : Subject) (i : Nat) : Bool :=
  i = s.text.size || (s.flags.multiline && (s.text[i]?).any fun u => isLineEnd u.toNat)

/-- Past a copy of what a group has matched. -/
def copyOf? (s : Subject) (isBack : Bool) : Nat → Nat → Nat → Nat → Option Nat
  | 0, _, _, i => some i
  | fuel + 1, start, stop, i =>
    if start = stop then some i
    else
      match s.step? isBack (if isBack then stop else start), s.step? isBack i with
      | some (a, from_), some (b, j) =>
        if s.sameCharacter a b then
          if isBack then copyOf? s isBack fuel start from_ j else copyOf? s isBack fuel from_ stop j
        else none
      | _, _ => none

end Subject

/-- The groups `first`, …, `first + count - 1` have matched nothing yet. -/
def Progress.clear (p : Progress) (first count : Nat) : Progress :=
  { p with groups := (List.range count).foldl (fun g i => g.set! (first + i) none) p.groups }

/-- Matches a node, and goes on. -/
def run (s : Subject) : (fuel : Nat) → Node → (isBack : Bool) → Progress →
    (Progress → Option Progress) → Option Progress
  | 0, _, _, _, _ => none
  | fuel + 1, node, isBack, p, go =>
    let one (test : Nat → Bool) : Option Progress :=
      match s.step? isBack p.position with
      | some (n, i) => if test n then go { p with position := i } else none
      | none => none
    match node with
    | .empty => go p
    | .char c => one (s.sameCharacter c)
    | .any => one fun n => s.flags.dotAll || !isLineEnd n
    | .set negated items => one fun n => s.inSet items n != negated
    | .seq a b =>
      if isBack then run s fuel b true p fun p => run s fuel a true p go
      else run s fuel a false p fun p => run s fuel b false p go
    | .alt a b =>
      match run s fuel a isBack p go with
      | some result => some result
      | none => run s fuel b isBack p go
    | .capture index x =>
      run s fuel x isBack p fun q =>
        let range := if isBack then (q.position, p.position) else (p.position, q.position)
        go { q with groups := q.groups.set! index (some range) }
    | .reference index =>
      match p.groups[index]? with
      | some (some (start, stop)) =>
        match s.copyOf? isBack (stop - start + 1) start stop p.position with
        | some i => go { p with position := i }
        | none => none
      | _ => go p
    | .loop x low high greedy first count =>
      if high = some 0 then go p
      else
        let again (q : Progress) : Option Progress :=
          if low = 0 && q.position = p.position then none
          else run s fuel (.loop x (low - 1) (high.map (· - 1)) greedy first count) isBack q go
        let more (_ : Unit) : Option Progress := run s fuel x isBack (p.clear first count) again
        if 0 < low then more ()
        else if greedy then
          match more () with
          | some result => some result
          | none => go p
        else
          match go p with
          | some result => some result
          | none => more ()
    | .look back negated x =>
      match run s fuel x back p some with
      | some q => if negated then none else go { q with position := p.position }
      | none => if negated then go p else none
    | .lineStart => if s.isLineStart p.position then go p else none
    | .lineEnd => if s.isAtLineEnd p.position then go p else none
    | .boundary negated => if s.isBoundary p.position != negated then go p else none

namespace Program

/-- A match that starts exactly at a place. -/
def matchAt? (program : Program) (text : Units) (start : Nat) : Option Progress :=
  let s : Subject := ⟨text, program.flags⟩
  let fuel := (program.node.size + 1) * (text.size + 3)
  let p : Progress := ⟨start, Array.replicate program.groupCount none⟩
  run s fuel program.node false p fun q =>
    some { q with groups := q.groups.set! 0 (some (start, q.position)) }

/-- The first match that starts at a place or at one of the `count` places after it. -/
def matchFrom? (program : Program) (text : Units) (start : Nat) : (count : Nat) → Option Progress
  | 0 => program.matchAt? text start
  | count + 1 =>
    match program.matchAt? text start with
    | some p => some p
    | none => matchFrom? program text (start + 1) count

/-- A match at or after a place; only at the place if the flags say so. -/
def exec? (program : Program) (text : Units) (start : Nat) : Option Progress :=
  if text.size < start then none
  else if program.flags.sticky then program.matchAt? text start
  else program.matchFrom? text start (text.size - start)

end Program

end PluginRelay.Script.Regexp
