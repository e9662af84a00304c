import MiniSQL.Parser.LexTables
import MiniSQL.Lib.Scan

/-!
# LexRules — the patterns of `parser/minisql.l`

The rules of the lexer in their order, as regular expressions over its character classes, and the
proof that the tables of the generated scanner implement them: every state has what the rules have
left behind the texts that lead there.
-/

namespace MiniSQL
namespace Lexer

open Lib.Scan

/-! ## Character classes -/

/-- A character, `L`, `D`, `LD`, `[^"\\]`, `.` and `[ \t\v\n\f]`. -/
inductive Chars
  | one (code : Nat)
  | L
  | D
  | LD
  | unquoted
  | dot
  | blank
deriving DecidableEq

def isLetter (b : Nat) : Bool :=
  Nat.ble 97 b && Nat.ble b 122 || Nat.ble 65 b && Nat.ble b 90 || b == 95

def isDigitCode (b : Nat) : Bool :=
  Nat.ble 48 b && Nat.ble b 57

def Chars.hasCode : Chars → Nat → Bool
  | one code, b => code == b
  | L, b => isLetter b
  | D, b => isDigitCode b
  | LD, b => isLetter b || isDigitCode b
  | unquoted, b => !(b == 34 || b == 92)
  | dot, b => !(b == 10)
  | blank, b => b == 32 || Nat.ble 9 b && Nat.ble b 12

def Chars.has (K : Chars) (b : UInt8) : Bool :=
  K.hasCode b.toNat

/-! ## Rules -/

/-- The characters with the codes, one after the other. -/
def codes (text : List Nat) : Regex Chars :=
  .word (text.map .one)

/-- `[-]?`. -/
def sign : Regex Chars :=
  .alt (.word []) (codes [45])

/-- `{LD}*`. -/
def identifierTail : Regex Chars :=
  .star (.word [.LD])

/-- `{D}*`. -/
def digitRun : Regex Chars :=
  .star (.word [.D])

/-- `{D}+`. -/
def decimals : Regex Chars :=
  .cat (.word [.D]) digitRun

/-- `{D}*\.{D}+`. -/
def numberTail : Regex Chars :=
  .cat digitRun (.cat (codes [46]) decimals)

/-- `(\\.|[^"\\])*`. -/
def quotedRun : Regex Chars :=
  .star (.alt (.word [.one 92, .dot]) (.word [.unquoted]))

/-- What follows the quote that opens a string. -/
def stringTail : Regex Chars :=
  .cat quotedRun (codes [34])

/-- What follows a backslash in a string. -/
def escaped : Regex Chars :=
  .cat (.cat (.word [.dot]) quotedRun) (codes [34])

/-- The rules with their numbers in the `switch` of `yylex`: strings, the keywords, identifiers,
numbers, the operators, blanks, and any other character. -/
def rules : List (Nat × Regex Chars) :=
  [(1, .cat (codes [34]) stringTail), (2, codes [99, 114, 101, 97, 116, 101]),
   (3, codes [100, 114, 111, 112]), (4, codes [115, 101, 108, 101, 99, 116]),
   (5, codes [105, 110, 115, 101, 114, 116]), (6, codes [100, 101, 108, 101, 116, 101]),
   (7, codes [117, 112, 100, 97, 116, 101]), (8, codes [98, 101, 103, 105, 110]),
   (9, codes [99, 111, 109, 109, 105, 116]), (10, codes [114, 111, 108, 108, 98, 97, 99, 107]),
   (11, codes [113, 117, 105, 116]), (12, codes [101, 120, 101, 99, 102, 105, 108, 101]),
   (13, codes [115, 104, 111, 119]), (14, codes [117, 115, 101]),
   (15, codes [117, 115, 105, 110, 103]), (16, codes [100, 97, 116, 97, 98, 97, 115, 101]),
   (17, codes [100, 97, 116, 97, 98, 97, 115, 101, 115]), (18, codes [116, 97, 98, 108, 101]),
   (19, codes [116, 97, 98, 108, 101, 115]), (20, codes [105, 110, 100, 101, 120]),
   (21, codes [105, 110, 100, 101, 120, 101, 115]), (22, codes [111, 110]),
   (23, codes [102, 114, 111, 109]), (24, codes [119, 104, 101, 114, 101]),
   (25, codes [105, 110, 116, 111]), (26, codes [115, 101, 116]),
   (27, codes [118, 97, 108, 117, 101, 115]), (28, codes [112, 114, 105, 109, 97, 114, 121]),
   (29, codes [107, 101, 121]), (30, codes [117, 110, 105, 113, 117, 101]),
   (31, codes [99, 104, 97, 114]), (32, codes [105, 110, 116]),
   (33, codes [102, 108, 111, 97, 116]), (34, codes [97, 110, 100]), (35, codes [111, 114]),
   (36, codes [110, 111, 116]), (37, codes [105, 115]), (38, codes [110, 117, 108, 108]),
   (39, .cat (.word [.L]) identifierTail), (40, .cat sign numberTail), (41, .cat sign digitRun),
   (42, codes [61]), (43, codes [60, 62]), (44, codes [60, 61]), (45, codes [62, 61]),
   (46, codes [44]), (47, codes [42]), (48, codes [59]), (49, codes [39]), (50, codes [60]),
   (51, codes [62]), (52, codes [40]), (53, codes [41]), (54, .word [.blank]), (55, .word [.dot])]

/-! ## The scanner -/

/-- The class of a character in a text: NUL has that of the characters without a pattern. -/
def charClass (code : Nat) : Nat :=
  if code = 0 then 1 else yy_ec.getD code 0

def YY_END_OF_BUFFER : Nat := 57

/-- The tables as an automaton; the state 3 is that of the end of the buffer. -/
def scanner : Scanner State UInt8 where
  start := stateOf 1
  next s b :=
    let next := yy_transition s (charClass b.toNat)
    if next = jam then none else some next
  rule s :=
    let yy_act := yy_accept.getD s 0
    if yy_act = 0 ∨ yy_act = YY_END_OF_BUFFER then none else some yy_act

/-! ## What the rules have left in the states -/

/-- The states 0, 2 and 3 are on no text. -/
def itemTable : List (List (Nat × Regex Chars)) :=
  [[], rules, rules, [], [(55, codes [])], [(54, codes []), (55, codes [])], [(54, codes [])],
   [(1, stringTail), (55, codes [])], [(49, codes []), (55, codes [])],
   [(52, codes []), (55, codes [])], [(53, codes []), (55, codes [])],
   [(47, codes []), (55, codes [])], [(46, codes []), (55, codes [])],
   [(40, numberTail), (41, digitRun), (55, codes [])], [(40, decimals), (55, codes [])],
   [(40, numberTail), (41, digitRun), (55, codes [])], [(48, codes []), (55, codes [])],
   [(43, codes [62]), (44, codes [61]), (50, codes []), (55, codes [])],
   [(42, codes []), (55, codes [])], [(45, codes [61]), (51, codes []), (55, codes [])],
   [(39, identifierTail), (55, codes [])],
   [(34, codes [110, 100]), (39, identifierTail), (55, codes [])],
   [(8, codes [101, 103, 105, 110]), (39, identifierTail), (55, codes [])],
   [(2, codes [114, 101, 97, 116, 101]), (9, codes [111, 109, 109, 105, 116]),
   (31, codes [104, 97, 114]), (39, identifierTail), (55, codes [])], [(3, codes [114, 111, 112]),
   (6, codes [101, 108, 101, 116, 101]), (16, codes [97, 116, 97, 98, 97, 115, 101]),
   (17, codes [97, 116, 97, 98, 97, 115, 101, 115]), (39, identifierTail), (55, codes [])],
   [(12, codes [120, 101, 99, 102, 105, 108, 101]), (39, identifierTail), (55, codes [])],
   [(23, codes [114, 111, 109]), (33, codes [108, 111, 97, 116]), (39, identifierTail),
   (55, codes [])], [(5, codes [110, 115, 101, 114, 116]), (20, codes [110, 100, 101, 120]),
   (21, codes [110, 100, 101, 120, 101, 115]), (25, codes [110, 116, 111]),
   (32, codes [110, 116]), (37, codes [115]), (39, identifierTail), (55, codes [])],
   [(29, codes [101, 121]), (39, identifierTail), (55, codes [])], [(36, codes [111, 116]),
   (38, codes [117, 108, 108]), (39, identifierTail), (55, codes [])],
   [(22, codes [110]), (35, codes [114]), (39, identifierTail), (55, codes [])],
   [(28, codes [114, 105, 109, 97, 114, 121]), (39, identifierTail), (55, codes [])],
   [(11, codes [117, 105, 116]), (39, identifierTail), (55, codes [])],
   [(10, codes [111, 108, 108, 98, 97, 99, 107]), (39, identifierTail), (55, codes [])],
   [(4, codes [101, 108, 101, 99, 116]), (13, codes [104, 111, 119]), (26, codes [101, 116]),
   (39, identifierTail), (55, codes [])], [(18, codes [97, 98, 108, 101]),
   (19, codes [97, 98, 108, 101, 115]), (39, identifierTail), (55, codes [])],
   [(7, codes [112, 100, 97, 116, 101]), (14, codes [115, 101]), (15, codes [115, 105, 110, 103]),
   (30, codes [110, 105, 113, 117, 101]), (39, identifierTail), (55, codes [])],
   [(27, codes [97, 108, 117, 101, 115]), (39, identifierTail), (55, codes [])],
   [(24, codes [104, 101, 114, 101]), (39, identifierTail), (55, codes [])], [(1, stringTail)],
   [(1, codes [])], [(1, escaped)], [(40, decimals)], [(40, numberTail), (41, digitRun)],
   [(40, digitRun)], [(44, codes [])], [(43, codes [])], [(45, codes [])], [(39, identifierTail)],
   [(34, codes [100]), (39, identifierTail)], [(8, codes [103, 105, 110]), (39, identifierTail)],
   [(31, codes [97, 114]), (39, identifierTail)],
   [(9, codes [109, 109, 105, 116]), (39, identifierTail)],
   [(2, codes [101, 97, 116, 101]), (39, identifierTail)],
   [(16, codes [116, 97, 98, 97, 115, 101]), (17, codes [116, 97, 98, 97, 115, 101, 115]),
   (39, identifierTail)], [(6, codes [108, 101, 116, 101]), (39, identifierTail)],
   [(3, codes [111, 112]), (39, identifierTail)],
   [(12, codes [101, 99, 102, 105, 108, 101]), (39, identifierTail)],
   [(33, codes [111, 97, 116]), (39, identifierTail)],
   [(23, codes [111, 109]), (39, identifierTail)], [(5, codes [115, 101, 114, 116]),
   (20, codes [100, 101, 120]), (21, codes [100, 101, 120, 101, 115]), (25, codes [116, 111]),
   (32, codes [116]), (39, identifierTail)], [(37, codes []), (39, identifierTail)],
   [(29, codes [121]), (39, identifierTail)], [(36, codes [116]), (39, identifierTail)],
   [(38, codes [108, 108]), (39, identifierTail)], [(22, codes []), (39, identifierTail)],
   [(35, codes []), (39, identifierTail)],
   [(28, codes [105, 109, 97, 114, 121]), (39, identifierTail)],
   [(11, codes [105, 116]), (39, identifierTail)],
   [(10, codes [108, 108, 98, 97, 99, 107]), (39, identifierTail)],
   [(4, codes [108, 101, 99, 116]), (26, codes [116]), (39, identifierTail)],
   [(13, codes [111, 119]), (39, identifierTail)],
   [(18, codes [98, 108, 101]), (19, codes [98, 108, 101, 115]), (39, identifierTail)],
   [(30, codes [105, 113, 117, 101]), (39, identifierTail)],
   [(7, codes [100, 97, 116, 101]), (39, identifierTail)],
   [(14, codes [101]), (15, codes [105, 110, 103]), (39, identifierTail)],
   [(27, codes [108, 117, 101, 115]), (39, identifierTail)],
   [(24, codes [101, 114, 101]), (39, identifierTail)], [(34, codes []), (39, identifierTail)],
   [(8, codes [105, 110]), (39, identifierTail)], [(31, codes [114]), (39, identifierTail)],
   [(9, codes [109, 105, 116]), (39, identifierTail)],
   [(2, codes [97, 116, 101]), (39, identifierTail)], [(16, codes [97, 98, 97, 115, 101]),
   (17, codes [97, 98, 97, 115, 101, 115]), (39, identifierTail)],
   [(6, codes [101, 116, 101]), (39, identifierTail)], [(3, codes [112]), (39, identifierTail)],
   [(12, codes [99, 102, 105, 108, 101]), (39, identifierTail)],
   [(33, codes [97, 116]), (39, identifierTail)], [(23, codes [109]), (39, identifierTail)],
   [(20, codes [101, 120]), (21, codes [101, 120, 101, 115]), (39, identifierTail)],
   [(5, codes [101, 114, 116]), (39, identifierTail)],
   [(25, codes [111]), (32, codes []), (39, identifierTail)],
   [(29, codes []), (39, identifierTail)], [(36, codes []), (39, identifierTail)],
   [(38, codes [108]), (39, identifierTail)],
   [(28, codes [109, 97, 114, 121]), (39, identifierTail)],
   [(11, codes [116]), (39, identifierTail)],
   [(10, codes [108, 98, 97, 99, 107]), (39, identifierTail)],
   [(4, codes [101, 99, 116]), (39, identifierTail)], [(26, codes []), (39, identifierTail)],
   [(13, codes [119]), (39, identifierTail)],
   [(18, codes [108, 101]), (19, codes [108, 101, 115]), (39, identifierTail)],
   [(30, codes [113, 117, 101]), (39, identifierTail)],
   [(7, codes [97, 116, 101]), (39, identifierTail)], [(14, codes []), (39, identifierTail)],
   [(15, codes [110, 103]), (39, identifierTail)],
   [(27, codes [117, 101, 115]), (39, identifierTail)],
   [(24, codes [114, 101]), (39, identifierTail)], [(8, codes [110]), (39, identifierTail)],
   [(31, codes []), (39, identifierTail)], [(9, codes [105, 116]), (39, identifierTail)],
   [(2, codes [116, 101]), (39, identifierTail)], [(16, codes [98, 97, 115, 101]),
   (17, codes [98, 97, 115, 101, 115]), (39, identifierTail)],
   [(6, codes [116, 101]), (39, identifierTail)], [(3, codes []), (39, identifierTail)],
   [(12, codes [102, 105, 108, 101]), (39, identifierTail)],
   [(33, codes [116]), (39, identifierTail)], [(23, codes []), (39, identifierTail)],
   [(20, codes [120]), (21, codes [120, 101, 115]), (39, identifierTail)],
   [(5, codes [114, 116]), (39, identifierTail)], [(25, codes []), (39, identifierTail)],
   [(38, codes []), (39, identifierTail)], [(28, codes [97, 114, 121]), (39, identifierTail)],
   [(11, codes []), (39, identifierTail)], [(10, codes [98, 97, 99, 107]), (39, identifierTail)],
   [(4, codes [99, 116]), (39, identifierTail)], [(13, codes []), (39, identifierTail)],
   [(18, codes [101]), (19, codes [101, 115]), (39, identifierTail)],
   [(30, codes [117, 101]), (39, identifierTail)], [(7, codes [116, 101]), (39, identifierTail)],
   [(15, codes [103]), (39, identifierTail)], [(27, codes [101, 115]), (39, identifierTail)],
   [(24, codes [101]), (39, identifierTail)], [(8, codes []), (39, identifierTail)],
   [(9, codes [116]), (39, identifierTail)], [(2, codes [101]), (39, identifierTail)],
   [(16, codes [97, 115, 101]), (17, codes [97, 115, 101, 115]), (39, identifierTail)],
   [(6, codes [101]), (39, identifierTail)], [(12, codes [105, 108, 101]), (39, identifierTail)],
   [(33, codes []), (39, identifierTail)],
   [(20, codes []), (21, codes [101, 115]), (39, identifierTail)],
   [(5, codes [116]), (39, identifierTail)], [(28, codes [114, 121]), (39, identifierTail)],
   [(10, codes [97, 99, 107]), (39, identifierTail)], [(4, codes [116]), (39, identifierTail)],
   [(18, codes []), (19, codes [115]), (39, identifierTail)],
   [(30, codes [101]), (39, identifierTail)], [(7, codes [101]), (39, identifierTail)],
   [(15, codes []), (39, identifierTail)], [(27, codes [115]), (39, identifierTail)],
   [(24, codes []), (39, identifierTail)], [(9, codes []), (39, identifierTail)],
   [(2, codes []), (39, identifierTail)],
   [(16, codes [115, 101]), (17, codes [115, 101, 115]), (39, identifierTail)],
   [(6, codes []), (39, identifierTail)], [(12, codes [108, 101]), (39, identifierTail)],
   [(21, codes [115]), (39, identifierTail)], [(5, codes []), (39, identifierTail)],
   [(28, codes [121]), (39, identifierTail)], [(10, codes [99, 107]), (39, identifierTail)],
   [(4, codes []), (39, identifierTail)], [(19, codes []), (39, identifierTail)],
   [(30, codes []), (39, identifierTail)], [(7, codes []), (39, identifierTail)],
   [(27, codes []), (39, identifierTail)],
   [(16, codes [101]), (17, codes [101, 115]), (39, identifierTail)],
   [(12, codes [101]), (39, identifierTail)], [(21, codes []), (39, identifierTail)],
   [(28, codes []), (39, identifierTail)], [(10, codes [107]), (39, identifierTail)],
   [(16, codes []), (17, codes [115]), (39, identifierTail)],
   [(12, codes []), (39, identifierTail)], [(10, codes []), (39, identifierTail)],
   [(17, codes []), (39, identifierTail)], []]

def itemsOf (s : Nat) : List (Nat × Regex Chars) :=
  itemTable.getD s []

/-- A character of each class. -/
def classTable : List Nat :=
  [0, 1, 9, 10, 34, 39, 40, 41, 42, 44, 45, 46, 48, 59, 60, 61, 62, 65, 92, 97, 98, 99, 100, 101,
   102, 103, 104, 105, 107, 108, 109, 110, 111, 112, 113, 114, 115, 116, 117, 118, 119, 120, 121]

/-- `yy_find` on the packed tables. -/
def findPacked (s c : Nat) : Nat → Option Nat
  | 0 => none
  | turns + 1 =>
    let entry := byteAt (pack yy_base) s + c
    if byteAt (pack yy_chk) entry = s then some (byteAt (pack yy_nxt) entry)
    else
      let next := byteAt (pack yy_def) s
      findPacked next (if 175 ≤ next then byteAt (pack yy_meta) c else c) turns

theorem yy_find_eq (s c turns : Nat) : yy_find s c turns = findPacked s c turns := by
  have hbase := byteAt_pack yy_base (by decide +kernel)
  have hchk := byteAt_pack yy_chk (by decide +kernel)
  have hnxt := byteAt_pack yy_nxt (by decide +kernel)
  have hdef := byteAt_pack yy_def (by decide +kernel)
  have hmeta := byteAt_pack yy_meta (by decide +kernel)
  induction turns generalizing s c with
  | zero =>
      rfl
  | succ turns ih =>
      simp only [yy_find, findPacked, hbase, hchk, hnxt, hdef, hmeta, ih]

/-- The transition of a class leads to what the rules have left behind its character. -/
def Leads (s c : Nat) : Prop :=
  ∃ t ∈ findPacked s c 3, 3 < t ∧ t < 175 ∧
    advance Chars.hasCode (byteAt (pack classTable) c) (itemsOf s) = itemsOf t

instance Leads.decidable (s c : Nat) : Decidable (Leads s c) :=
  inferInstanceAs (Decidable (∃ t ∈ findPacked s c 3, _))

theorem transitions_lead (s : State) (hs : 0 < s.val) (c : Fin 42) : Leads s (c.val + 1) := by
  -- Three evaluations, as the kernel keeps what it has computed until an evaluation ends.
  have hfirst : ∀ s : Fin 58, ∀ c : Fin 42, Leads (s.val + 1) (c.val + 1) := by
    decide +kernel
  have hmiddle : ∀ s : Fin 58, ∀ c : Fin 42, Leads (s.val + 59) (c.val + 1) := by
    decide +kernel
  have hlast : ∀ s : Fin 58, ∀ c : Fin 42, Leads (s.val + 117) (c.val + 1) := by
    decide +kernel
  have hlt := s.isLt
  rcases Nat.lt_or_ge s.val 59 with hlow | hlow
  · have hlead := hfirst ⟨s.val - 1, by omega⟩ c
    rwa [Nat.sub_add_cancel hs] at hlead
  rcases Nat.lt_or_ge s.val 117 with hmid | hmid
  · have hlead := hmiddle ⟨s.val - 59, by omega⟩ c
    rwa [Nat.sub_add_cancel hlow] at hlead
  · have hlead := hlast ⟨s.val - 117, by omega⟩ c
    rwa [Nat.sub_add_cancel hmid] at hlead

/-- The loop over `yy_def` ends, in the state 0 it would not. -/
theorem yy_find_ends (s : State) (hs : 0 < s.val) (c : Fin 42) :
    (yy_find s (c.val + 1) 3).isSome := by
  obtain ⟨t, ht, _⟩ := transitions_lead s hs c
  rw [yy_find_eq, ht]
  rfl

/-- No entry of the tables is for the state 0. -/
theorem no_transition : ∀ c : Fin 42, findPacked 0 (c.val + 1) 3 = none := by
  decide +kernel

theorem charClass_range : ∀ b : Fin 256, 1 ≤ charClass b ∧ charClass b ≤ 42 := by
  decide +kernel

/-- The characters that a rule names have a class of their own. -/
def named : List Nat :=
  [34, 39, 40, 41, 42, 44, 45, 46, 59, 60, 61, 62, 92, 97, 98, 99, 100, 101, 102, 103, 104, 105,
   107, 108, 109, 110, 111, 112, 113, 114, 115, 116, 117, 118, 119, 120, 121]

def namedBits : Nat :=
  named.foldr (fun code bits => bits ||| 2 ^ code) 0

def Chars.known : Chars → Bool
  | one code => Nat.ble code 127 && namedBits.testBit code
  | _ => true

/-- The character of a class is in the same character classes as every character of the class. -/
theorem Chars.alike {K : Chars} (hK : K.known = true) (b : UInt8) :
    K.has b = K.hasCode (byteAt (pack classTable) (charClass b.toNat)) := by
  have hclasses : ∀ b : Fin 256, ∀ K ∈ [Chars.L, .D, .LD, .unquoted, .dot, .blank],
      K.hasCode b = K.hasCode (byteAt (pack classTable) (charClass b)) := by
    decide +kernel
  cases K with
  | one code =>
      have hnamed : ∀ code : Fin 128, namedBits.testBit code = true → code.val ∈ named := by
        decide +kernel
      have halike : ∀ b : Fin 256, ∀ code ∈ named,
          (Chars.one code).hasCode b =
            (Chars.one code).hasCode (byteAt (pack classTable) (charClass b)) := by
        decide +kernel
      rw [known, Bool.and_eq_true, Nat.ble_eq] at hK
      have hmem := hnamed ⟨code, Nat.lt_succ_of_le hK.1⟩ hK.2
      exact halike ⟨b.toNat, b.toNat_lt⟩ code hmem
  | _ =>
      exact hclasses ⟨b.toNat, b.toNat_lt⟩ _ (by simp)

/-- The generated scanner implements the rules. -/
theorem scanner_certified : scanner.Certified Chars.has rules fun s => itemsOf s where
  sorted := by decide +kernel
  start := rfl
  next s b := by
    obtain ⟨hpos, hlast⟩ : 1 ≤ charClass b.toNat ∧ charClass b.toNat ≤ 42 :=
      charClass_range ⟨b.toNat, b.toNat_lt⟩
    obtain ⟨c, hc⟩ : ∃ c : Fin 42, c.val + 1 = charClass b.toNat :=
      ⟨⟨charClass b.toNat - 1, by omega⟩, Nat.sub_add_cancel hpos⟩
    rcases Nat.eq_zero_or_pos s.val with hzero | hs
    · have hjam : scanner.next s b = none := by
        have hfind : yy_find s (charClass b.toNat) 3 = none := by
          rw [hzero, ← hc, yy_find_eq, no_transition]
        simp only [scanner, yy_transition, hfind]
        rfl
      rw [hjam, hzero]
      rfl
    · obtain ⟨t, ht, _, hlt, hleads⟩ := transitions_lead s hs c
      have hadvance : advance Chars.has b (itemsOf s) = itemsOf t := by
        have hknown : ∀ s : State, ∀ e ∈ itemsOf s, ∀ K ∈ e.2.classes, K.known = true := by
          decide +kernel
        rw [← hleads, hc]
        exact advance_congr fun e he K hK => Chars.alike (hknown s e he K hK) b
      have hnext : yy_transition s (charClass b.toNat) = ⟨t, hlt⟩ := by
        rw [yy_transition, yy_find_eq, ← hc, ht]
        exact Fin.ext (Nat.mod_eq_of_lt hlt)
      rw [hadvance]
      simp only [scanner, hnext]
      split
      · next hjam =>
          rw [show t = 174 from congrArg Fin.val hjam]
          rfl
      · rfl
  rule := by decide +kernel

end Lexer
end MiniSQL
