import MiniSQL.Parser.LexRules

/-!
# Lexer — the match loop of `yylex`

`yylex` scans a copy of the command with two NUL characters behind it.  The match loop goes on until
the tables jam and backs up to the last accepting state; where it runs into the end of the buffer,
`yy_get_previous_state` goes over the text again.  Both ways the longest match of the rules is
found.
-/

namespace MiniSQL
namespace Lexer

open Lib.Scan

/-! ## The match loop -/

/-- The registers of `yylex`; positions count from `yytext_ptr`. -/
structure Registers where
  yy_current_state : State
  yy_cp : Nat
  yy_last_accepting_state : State
  yy_last_accepting_cpos : Nat

namespace Registers

/-- A turn of the match loop for the class of a character. -/
def step (m : Registers) (yy_c : Nat) : Registers :=
  let accepting := yy_accept.getD m.yy_current_state 0 ≠ 0
  { yy_current_state := yy_transition m.yy_current_state yy_c
    yy_cp := m.yy_cp + 1
    yy_last_accepting_state :=
      if accepting then m.yy_current_state else m.yy_last_accepting_state
    yy_last_accepting_cpos := if accepting then m.yy_cp else m.yy_last_accepting_cpos }

/-- The registers for the next match: the last accepting state is that of the match before. -/
def restart (m : Registers) : Registers :=
  { m with yy_current_state := scanner.start, yy_cp := 0 }

end Registers

/-- `yy_match` over the characters of the buffer; it does not read behind them (`yy_match_text`). -/
def yy_match (m : Registers) : List UInt8 → Option Registers
  | [] => none
  | c :: rest =>
    let m := m.step (yy_ec.getD c.toNat 0)
    if yy_base.getD m.yy_current_state 0 = 189 then some m else yy_match m rest

/-- `yy_get_previous_state`. -/
def yy_get_previous_state (m : Registers) : List UInt8 → Registers
  | [] => m
  | c :: rest => yy_get_previous_state (m.step (charClass c.toNat)) rest

/-- `yy_find_action`: the action and the length of the match. -/
def yy_find_action (m : Registers) : Nat × Nat :=
  let yy_act := yy_accept.getD m.yy_current_state 0
  if yy_act = 0 then
    (yy_accept.getD m.yy_last_accepting_state 0, m.yy_last_accepting_cpos)
  else (yy_act, m.yy_cp)

/-- `YY_STATE_EOF(INITIAL)`. -/
def YY_STATE_EOF : Nat := 58

/-- A match of `yylex`, with the registers that the match before has left. -/
def yy_scan (m : Registers) (text : List UInt8) : Option (Nat × Nat) := do
  let m ← yy_match m.restart (text ++ [0, 0])
  let (yy_act, yy_cp) := yy_find_action m
  if yy_act = YY_END_OF_BUFFER then
    -- `yy_get_next_buffer`: nothing but the end was read, or there is text in front of it.
    if yy_cp = 1 then some (YY_STATE_EOF, 0)
    else some (yy_find_action (yy_get_previous_state m.restart text))
  else some (yy_act, yy_cp)

/-! ## The loop and the automaton -/

variable {m : Registers} {text : List UInt8}

/-- What the registers say when nothing more is accepted. -/
def Registers.last (m : Registers) : Nat × Nat :=
  (yy_accept.getD m.yy_last_accepting_state 0, m.yy_last_accepting_cpos)

/-- The end of a scan from the registers on, as the automaton has it. -/
def Registers.outcome (m : Registers) (text : List UInt8) : Nat × Nat :=
  match scanner.best m.yy_current_state text with
  | some (n, k) => (n, m.yy_cp + k)
  | none => m.last

theorem Registers.restart_state (m : Registers) :
    0 < m.restart.yy_current_state.val ∧ m.restart.yy_current_state ≠ 3 := by
  have hpos : 0 < scanner.start.val := by decide
  have hne : scanner.start ≠ 3 := by decide
  exact ⟨hpos, hne⟩

theorem transition_of_find {s : State} {yy_c t : Nat} (hfind : findPacked s yy_c 3 = some t)
    (hlt : t < 175) : yy_transition s yy_c = ⟨t, hlt⟩ := by
  rw [yy_transition, yy_find_eq, hfind]
  exact Fin.ext (Nat.mod_eq_of_lt hlt)

theorem end_of_text {s : State} (hpos : 0 < s.val) (hs : s ≠ 3) : yy_transition s 0 = 3 := by
  have hfind : ∀ s : State, 0 < s.val → s ≠ 3 → findPacked s 0 3 = some 3 := by
    decide +kernel
  exact transition_of_find (hfind s hpos hs) (by decide)

theorem end_of_buffer : yy_transition 3 0 = jam := by
  decide +kernel

/-- The states where the match loop ends have no transitions. -/
theorem jam_of_base {s : State} (hbase : yy_base.getD s 0 = 189) (c : Fin 42) :
    yy_transition s (c.val + 1) = jam := by
  have hfind : ∀ s : State, byteAt (pack yy_base) s = 189 → ∀ c : Fin 42,
      findPacked s (c.val + 1) 3 = some 174 := by
    decide +kernel
  rw [← byteAt_pack yy_base (by decide +kernel)] at hbase
  exact transition_of_find (hfind s hbase c) (by decide)

theorem rule_of_ne {s : State} (hs : s ≠ 3) : scanner.rule s =
    if yy_accept.getD s 0 = 0 then none else some (yy_accept.getD s 0) := by
  have hend : ∀ s : State, yy_accept.getD s 0 = YY_END_OF_BUFFER → s = 3 := by
    decide +kernel
  have hne : yy_accept.getD s 0 ≠ YY_END_OF_BUFFER := fun h => hs (hend s h)
  simp only [scanner, hne, or_false]

theorem rule_ne {s : State} {n : Nat} (h : scanner.rule s = some n) : n ≠ YY_END_OF_BUFFER := by
  simp only [scanner] at h
  split at h
  · cases h
  · next hne =>
      obtain rfl := Option.some.inj h
      exact fun hend => hne (.inr hend)

theorem charClass_eq_succ (c : UInt8) : ∃ k : Fin 42, charClass c.toNat = k.val + 1 := by
  obtain ⟨hpos, hlast⟩ : 1 ≤ charClass c.toNat ∧ charClass c.toNat ≤ 42 :=
    charClass_range ⟨c.toNat, c.toNat_lt⟩
  exact ⟨⟨charClass c.toNat - 1, by omega⟩, (Nat.sub_add_cancel hpos).symm⟩

/-- Characters lead to the states of texts. -/
theorem transition_text {s : State} (hs : 0 < s.val) (c : UInt8) :
    3 < (yy_transition s (charClass c.toNat)).val := by
  obtain ⟨k, hk⟩ := charClass_eq_succ c
  obtain ⟨t, ht, hthree, hlt, _⟩ := transitions_lead s hs k
  rw [hk, transition_of_find ht hlt]
  exact hthree

theorem state_ne {s : State} (hs : 3 < s.val) : s ≠ 3 := by
  rintro rfl
  exact absurd hs (Nat.lt_irrefl 3)

theorem next_eq (s : State) (c : UInt8) : scanner.next s c =
    if yy_transition s (charClass c.toNat) = jam then none
    else some (yy_transition s (charClass c.toNat)) :=
  rfl

theorem best_jam (text : List UInt8) : scanner.best jam text = none := by
  cases text with
  | nil =>
      rfl
  | cons c text =>
      obtain ⟨k, hk⟩ := charClass_eq_succ c
      have hjam : yy_transition jam (charClass c.toNat) = jam := by
        rw [hk]
        exact jam_of_base rfl k
      rw [Scanner.best, next_eq, if_pos hjam]
      rfl

/-- `yy_find_action` behind `yy_get_previous_state`. -/
theorem find_action_previous (hpos : 0 < m.yy_current_state.val) (hend : m.yy_current_state ≠ 3) :
    yy_find_action (yy_get_previous_state m text) = m.outcome text := by
  induction text generalizing m with
  | nil =>
      rw [yy_get_previous_state, yy_find_action, Registers.outcome, Scanner.best, rule_of_ne hend]
      split
      · rfl
      · rfl
  | cons c text ih =>
      have hthree := transition_text hpos c
      rw [yy_get_previous_state, ih (Nat.zero_lt_of_lt hthree) (state_ne hthree),
        Registers.outcome, Registers.outcome, Scanner.best, next_eq]
      have hlast : (m.step (charClass c.toNat)).last =
          match (scanner.rule m.yy_current_state).map (·, 0) with
          | some (n, k) => (n, m.yy_cp + k)
          | none => m.last := by
        rw [rule_of_ne hend, Registers.last, Registers.step]
        by_cases haccept : yy_accept.getD m.yy_current_state 0 = 0
        · simp only [haccept, ne_eq, not_true_eq_false, if_false, if_true, Option.map_none]
          rfl
        · simp only [haccept, ne_eq, not_false_eq_true, if_true, if_false, Option.map_some,
            Nat.add_zero]
      by_cases hjam : yy_transition m.yy_current_state (charClass c.toNat) = jam
      · have hstate : (m.step (charClass c.toNat)).yy_current_state = jam := hjam
        rw [hstate, best_jam, if_pos hjam, Option.bind_none]
        exact hlast
      · rw [if_neg hjam, Option.bind_some]
        have hstate : (m.step (charClass c.toNat)).yy_current_state =
            yy_transition m.yy_current_state (charClass c.toNat) := rfl
        rw [hstate]
        cases scanner.best (yy_transition m.yy_current_state (charClass c.toNat)) text with
        | none =>
            exact hlast
        | some e =>
            obtain ⟨n, k⟩ := e
            exact congrArg (n, ·) (Nat.add_right_comm m.yy_cp 1 k)

theorem charClass_of_ne {c : UInt8} (hc : c ≠ 0) : charClass c.toNat = yy_ec.getD c.toNat 0 :=
  if_neg fun h => hc (UInt8.toNat_inj.mp h)

/-- The match loop stops where going over the text ends as well, or at the end of the buffer. -/
theorem yy_match_text (hpos : 0 < m.yy_current_state.val) (hend : m.yy_current_state ≠ 3)
    (htext : 0 ∉ text) : ∃ m', yy_match m (text ++ [0, 0]) = some m' ∧
      (yy_find_action m' = (YY_END_OF_BUFFER, m.yy_cp + text.length + 1) ∨
        text ≠ [] ∧ yy_find_action m' = m.outcome text) := by
  induction text generalizing m with
  | nil =>
      -- The first NUL leads to the state 3, the second one jams.
      have hthree : (m.step 0).yy_current_state = 3 := end_of_text hpos hend
      have hzero : yy_ec.getD (0 : UInt8).toNat 0 = 0 := rfl
      refine ⟨(m.step 0).step 0, ?_, .inl ?_⟩
      · rw [List.nil_append, yy_match, hzero, hthree, if_neg (by decide), yy_match, hzero]
        exact if_pos (by rw [Registers.step, hthree, end_of_buffer]; rfl)
      · have hjam : ((m.step 0).step 0).yy_current_state = jam := by
          rw [Registers.step, hthree]
          exact end_of_buffer
        have hlast : ((m.step 0).step 0).yy_last_accepting_state = 3 := by
          rw [Registers.step, hthree]
          rfl
        have hcpos : ((m.step 0).step 0).yy_last_accepting_cpos = m.yy_cp + 1 := by
          rw [Registers.step, hthree]
          rfl
        rw [yy_find_action, hjam, hlast, hcpos]
        rfl
  | cons c text ih =>
      obtain ⟨hc, htext⟩ := not_or.mp (List.mem_cons.not.mp htext)
      have hclass := charClass_of_ne (Ne.symm hc)
      have hthree : 3 < (m.step (charClass c.toNat)).yy_current_state.val :=
        transition_text hpos c
      have houtcome : (m.step (charClass c.toNat)).outcome text = m.outcome (c :: text) := by
        rw [← find_action_previous (Nat.zero_lt_of_lt hthree) (state_ne hthree),
          ← find_action_previous hpos hend]
        rfl
      rw [List.cons_append, yy_match, ← hclass]
      by_cases hbase : yy_base.getD (m.step (charClass c.toNat)).yy_current_state 0 = 189
      · refine ⟨_, if_pos hbase, .inr ⟨List.cons_ne_nil c text, ?_⟩⟩
        -- The state has no transitions, so what follows does not matter.
        have hstop : scanner.best (m.step (charClass c.toNat)).yy_current_state text =
            scanner.best (m.step (charClass c.toNat)).yy_current_state [] := by
          cases text with
          | nil =>
              rfl
          | cons d text =>
              obtain ⟨k, hk⟩ := charClass_eq_succ d
              rw [Scanner.best, Scanner.best, next_eq, hk, if_pos (jam_of_base hbase k)]
              rfl
        rw [← houtcome, Registers.outcome, hstop]
        exact @find_action_previous _ [] (Nat.zero_lt_of_lt hthree) (state_ne hthree)
      · rw [if_neg hbase]
        obtain ⟨m', hmatch, haction⟩ := ih (Nat.zero_lt_of_lt hthree) (state_ne hthree) htext
        refine ⟨m', hmatch, ?_⟩
        rcases haction with hbuffer | ⟨_, haction⟩
        · refine .inl (hbuffer.trans (congrArg (YY_END_OF_BUFFER, ·) ?_))
          have hcp : (m.step (charClass c.toNat)).yy_cp = m.yy_cp + 1 := rfl
          rw [hcp, List.length_cons]
          omega
        · exact .inr ⟨List.cons_ne_nil c text, haction.trans houtcome⟩

/-! ## The longest match -/

/-- Every character has a rule of its own: that of blanks or the last one. -/
theorem matches_single (c : UInt8) : ∃ n, Matches Chars.has rules n [c] := by
  by_cases hnewline : c = 10
  · have hblank : Chars.blank.has c = true := by rw [hnewline]; rfl
    exact ⟨54, .word [.blank], by decide, .cons hblank .nil⟩
  · have hdot : Chars.dot.has c = true := by
      simpa [Chars.has, Chars.hasCode, UInt8.ext_iff] using hnewline
    exact ⟨55, .word [.dot], by decide, .cons hdot .nil⟩

/-- The longest match of a text is not empty. -/
theorem best_start (htext : text ≠ []) : ∃ n k, scanner.best scanner.start text = some (n, k) ∧
    0 < k := by
  cases hbest : scanner.best scanner.start text with
  | none =>
      have hnone := scanner_certified.best_from (s := scanner.start) scanner_certified.sorted text
      rw [hbest] at hnone
      obtain ⟨c, rest, rfl⟩ := List.exists_cons_of_ne_nil htext
      obtain ⟨n, hn⟩ := matches_single c
      exact absurd hn (hnone 1 (by simp) n)
  | some e =>
      obtain ⟨n, k⟩ := e
      refine ⟨n, k, rfl, Nat.pos_of_ne_zero fun hk => ?_⟩
      obtain ⟨_, _, hlonger⟩ := scanner_certified.best_eq_some.mp hbest
      obtain ⟨c, rest, rfl⟩ := List.exists_cons_of_ne_nil htext
      obtain ⟨j, hj⟩ := matches_single c
      exact hlonger 1 (by omega) (by simp) j hj

theorem best_rule_ne {s : State} {n k : Nat} (hbest : scanner.best s text = some (n, k)) :
    n ≠ YY_END_OF_BUFFER := by
  induction text generalizing s k with
  | nil =>
      obtain ⟨n', hrule, hn⟩ := Option.map_eq_some_iff.mp hbest
      exact (Prod.mk.inj hn).1 ▸ rule_ne hrule
  | cons c text ih =>
      rw [Scanner.best] at hbest
      split at hbest
      · next n' k' hnext =>
          obtain ⟨t, _, ht⟩ := Option.bind_eq_some_iff.mp hnext
          obtain ⟨rfl, _⟩ := Prod.mk.inj (Option.some.inj hbest)
          exact ih ht
      · obtain ⟨n', hrule, hn⟩ := Option.map_eq_some_iff.mp hbest
        exact (Prod.mk.inj hn).1 ▸ rule_ne hrule

/-- A match of `yylex` is the longest match of the automaton, whatever the match before has left. -/
theorem yy_scan_eq (m : Registers) (htext : 0 ∉ text) (hne : text ≠ []) :
    yy_scan m text = scanner.best scanner.start text := by
  obtain ⟨n, k, hbest, _⟩ := best_start hne
  have houtcome : ∀ m : Registers, m.restart.outcome text = (n, k) := by
    intro m
    have hstate : m.restart.yy_current_state = scanner.start := rfl
    rw [Registers.outcome, hstate, hbest]
    exact congrArg (n, ·) (Nat.zero_add k)
  obtain ⟨hpos, hend⟩ := m.restart_state
  obtain ⟨m', hmatch, haction⟩ := yy_match_text hpos hend htext
  rw [yy_scan, hmatch, hbest]
  rcases haction with hbuffer | ⟨_, haction⟩
  · have hlen : ¬ m.restart.yy_cp + text.length + 1 = 1 := by
      have := List.length_pos_iff.mpr hne
      omega
    have hprevious : yy_find_action (yy_get_previous_state m'.restart text) = (n, k) := by
      rw [find_action_previous m'.restart_state.1 m'.restart_state.2, houtcome]
    simp only [Option.bind_some, bind, hbuffer, hlen, if_true, if_false, hprevious]
  · rw [houtcome] at haction
    simp only [Option.bind_some, bind, haction, best_rule_ne hbest, if_false]

/-- Without text there is the end of the input. -/
theorem yy_scan_nil (m : Registers) : yy_scan m [] = some (YY_STATE_EOF, 0) := by
  obtain ⟨hpos, hend⟩ := m.restart_state
  obtain ⟨m', hmatch, haction⟩ := yy_match_text hpos hend (List.not_mem_nil (a := 0))
  rcases haction with hbuffer | ⟨hne, _⟩
  · rw [yy_scan, hmatch]
    simp only [Option.bind_some, bind, hbuffer]
    rfl
  · exact absurd rfl hne

/-- `yylex` finds the longest prefix that a rule of `minisql.l` matches, and of the rules that match
it the first one. -/
theorem yy_scan_longest (m : Registers) (htext : 0 ∉ text) (hne : text ≠ []) {n k : Nat} :
    yy_scan m text = some (n, k) ↔ Longest Chars.has rules text n k := by
  rw [yy_scan_eq m htext hne]
  exact scanner_certified.best_eq_some

/-- `select1` is an identifier: the keyword is a shorter match. -/
theorem yy_scan_longest_select :
    yy_scan ⟨scanner.start, 0, scanner.start, 0⟩ [115, 101, 108, 101, 99, 116, 49, 32] =
        some (39, 7) ∧
      Longest Chars.has rules [115, 101, 108, 101, 99, 116, 49, 32] 39 7 := by
  have hscan : yy_scan ⟨scanner.start, 0, scanner.start, 0⟩
      [115, 101, 108, 101, 99, 116, 49, 32] = some (39, 7) := by
    decide +kernel
  exact ⟨hscan, (yy_scan_longest _ (by decide) (by decide)).mp hscan⟩

/-- Every match is that of a rule of `minisql.l`, takes a character at least and stays inside the
text, so `yylex` is through with a text after as many matches as it has characters. -/
theorem yy_scan_progress (m : Registers) (htext : 0 ∉ text) (hne : text ≠ []) :
    ∃ n k, yy_scan m text = some (n, k) ∧ 0 < k ∧ k ≤ text.length ∧
      Matches Chars.has rules n (text.take k) := by
  obtain ⟨n, k, hbest, hpos⟩ := best_start hne
  obtain ⟨hle, hfirst, _⟩ := scanner_certified.best_eq_some.mp hbest
  exact ⟨n, k, (yy_scan_eq m htext hne).trans hbest, hpos, hle, hfirst.1⟩

theorem yy_scan_progress_select :
    ∃ n k, yy_scan ⟨scanner.start, 0, scanner.start, 0⟩ [115, 101, 108, 101, 99, 116, 49, 32] =
        some (n, k) ∧ 0 < k ∧ k ≤ 8 ∧
      Matches Chars.has rules n (([115, 101, 108, 101, 99, 116, 49, 32] : List UInt8).take k) :=
  yy_scan_progress _ (by decide) (by decide)

end Lexer
end MiniSQL
