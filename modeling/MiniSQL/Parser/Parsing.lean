import MiniSQL.Parser.Statements

/-!
# Parsing — what `yyparse` returns and leaves

`yyparse` returns 0 for the statements that fit on its stack and 2 for those that do not.  The root
is set as soon as the semicolon of a statement is read, so input that goes on behind it leaves both
the tree and an error.
-/

namespace MiniSQL
namespace Parser

open Lib.LR

variable {sql : Sql} {u w : List Lexeme} {trailing : List UInt8} {s : ParserState} {h : Heap}

/-! ## The end of the run -/

theorem setError_kept (msg : List UInt8) (s : ParserState) :
    (s.setError msg).heap = s.heap ∧ (s.setError msg).root = s.root := by
  rw [ParserState.setError]
  split
  · exact ⟨rfl, rfl⟩
  · exact ⟨rfl, rfl⟩

/-- `yyparse` leaves the heap and the root of the run. -/
theorem yyparse_kept (w : List Lexeme) (trailing : List UInt8) (s : ParserState) :
    (yyparse w trailing s).2.heap = (yyrun w trailing s).state.heap ∧
      (yyparse w trailing s).2.root = (yyrun w trailing s).state.root := by
  rw [yyparse]
  split
  · exact ⟨rfl, rfl⟩
  · exact setError_kept _ _
  · exact setError_kept _ _

/-- `yyresult` at the end of the run. -/
def yyresult : Status → Nat
  | .accepted => 0
  | .exhausted => 2
  | _ => 1

theorem yyparse_fst (w : List Lexeme) (trailing : List UInt8) (s : ParserState) :
    (yyparse w trailing s).1 = yyresult (yyrun w trailing s).status := by
  rw [yyparse]
  cases (yyrun w trailing s).status <;> rfl

theorem yyresult_eq_zero {status : Status} : yyresult status = 0 ↔ status = .accepted := by
  cases status <;> simp [yyresult]

/-- After eight steps for every token the parser has stopped, and its state does not change any
more. -/
theorem yyrun_over (w : List Lexeme) (trailing : List UInt8) (s : ParserState) (n : Nat) :
    (yyrun w trailing s).status ≠ .running ∧
      automaton.run (client trailing) YYMAXDEPTH (n + (w.length * 8 + 1)) (Automaton.begin w s) =
        yyrun w trailing s := by
  refine ⟨yyparse_stops w trailing s, ?_⟩
  rw [run_add]
  exact run_stopped n (yyparse_stops w trailing s)

/-! ## Results -/

theorem status_of_statement (htokens : w.map Lexeme.token = startTokens sql) :
    (yyrun w trailing s).status =
      if startDepth sql + 1 < YYMAXDEPTH then .accepted else .exhausted := by
  split
  · next hfit =>
      exact (accepted_iff w trailing s).mpr ⟨sql, htokens, hfit⟩
  · next hfull =>
      exact tables_complete.exhausted_of_derives (M := phrases) tables_sound rfl (by decide)
        (yyparse_stops w trailing s) (derives_startTokens htokens) (Nat.le_of_not_lt hfull)

/-- `yyparse` returns 0 for the statements that fit on the stack and for nothing else. -/
theorem yyparse_eq_zero_iff (w : List Lexeme) (trailing : List UInt8) (s : ParserState) :
    (yyparse w trailing s).1 = 0 ↔
      ∃ sql, w.map Lexeme.token = startTokens sql ∧ startDepth sql + 1 < YYMAXDEPTH := by
  rw [← accepted_iff w trailing s, yyparse_fst]
  exact yyresult_eq_zero

/-- A statement is never a syntax error: it is accepted, or the stack is exhausted. -/
theorem yyparse_statement (htokens : w.map Lexeme.token = startTokens sql) :
    (yyparse w trailing s).1 = if startDepth sql + 1 < YYMAXDEPTH then 0 else 2 := by
  rw [yyparse_fst, status_of_statement htokens, apply_ite yyresult]
  rfl

/-- The heap before the first node. -/
def Heap.empty : Heap :=
  ⟨0, fun _ => ⟨.kNodeQuit, none, none, none⟩⟩

/-- `show databases;` as it comes from the lexer. -/
def showDatabases : List Lexeme :=
  [⟨[], .SHOW, trivial⟩, ⟨[], .DATABASES, trivial⟩, ⟨[], .lit ';', Token.lexed_semicolon⟩]

theorem showDatabases_tokens :
    showDatabases.map Lexeme.token = startTokens .showDatabases :=
  rfl

theorem yyparse_statement_show : (yyparse showDatabases [] (.init .empty)).1 = 0 :=
  (yyparse_statement showDatabases_tokens).trans (if_pos (by decide))

theorem CommaList.depth_const {α : Type} (items : CommaList α) :
    items.depth (fun _ => 1) + 1 = 2 * items.toList.length := by
  induction items with
  | one item =>
      rfl
  | cons item rest ih =>
      rw [depth, toList, List.length_cons]
      omega

/-- An insertion is accepted with 4997 values at most. -/
theorem yyparse_insert {table : CStr} {values : CommaList ColumnValue}
    (htokens : w.map Lexeme.token = startTokens (.insert table values)) :
    (yyparse w trailing s).1 = if values.toList.length ≤ 4997 then 0 else 2 := by
  -- Every value but the last one stays on the stack with its comma.
  have hdepth := values.depth_const
  have hfit : startDepth (.insert table values) + 1 < YYMAXDEPTH ↔
      values.toList.length ≤ 4997 := by
    rw [startDepth, Sql.depth, YYMAXDEPTH]
    omega
  rw [yyparse_fst, status_of_statement htokens, apply_ite yyresult]
  exact if_congr hfit rfl rfl

/-- `insert into t values (null, 1, null);` as it comes from the lexer. -/
def insertThree : List Lexeme :=
  [⟨[], .INSERT, trivial⟩, ⟨[], .INTO, trivial⟩, ⟨[], .IDENTIFIER (literal "t"), trivial⟩,
    ⟨[], .VALUES, trivial⟩, ⟨[], .lit '(', Token.lexed_open⟩, ⟨[], .FLAGNULL, trivial⟩,
    ⟨[], .lit ',', Token.lexed_comma⟩, ⟨[], .NUMBER (literal "1"), trivial⟩,
    ⟨[], .lit ',', Token.lexed_comma⟩, ⟨[], .FLAGNULL, trivial⟩,
    ⟨[], .lit ')', Token.lexed_close⟩, ⟨[], .lit ';', Token.lexed_semicolon⟩]

theorem insertThree_tokens : insertThree.map Lexeme.token = startTokens (.insert (literal "t")
    (.cons .flagNull (.cons (.number (literal "1")) (.one .flagNull)))) :=
  rfl

theorem yyparse_insert_three : (yyparse insertThree [] (.init .empty)).1 = 0 :=
  (yyparse_insert insertThree_tokens).trans (if_pos (by decide))

/-! ## What is left behind -/

/-- A statement has its tree as the root whatever comes behind it, and an error when something
does. -/
theorem yyparse_prefix (htokens : u.map Lexeme.token = startTokens sql)
    (hfit : startDepth sql + 1 < YYMAXDEPTH) (z : List Lexeme) (trailing : List UInt8) (h : Heap) :
    ∃ p, (yyparse (u ++ z) trailing (.init h)).2.root = some p ∧
      Built (yyparse (u ++ z) trailing (.init h)).2.heap sql.tree p ∧
      (yyparse (u ++ z) trailing (.init h)).1 = if z = [] then 0 else 1 := by
  obtain ⟨p, hroot, hbuilt, hstatus⟩ := yyrun_prefix htokens hfit z trailing h
  obtain ⟨hheap, hkept⟩ := yyparse_kept (u ++ z) trailing (.init h)
  refine ⟨p, hkept.trans hroot, ?_, ?_⟩
  · rw [hheap]
    exact hbuilt
  · rw [yyparse_fst, hstatus, apply_ite yyresult]
    rfl

theorem yyparse_prefix_show :
    ∃ p, (yyparse (showDatabases ++ insertThree) [] (.init .empty)).2.root = some p ∧
      Built (yyparse (showDatabases ++ insertThree) [] (.init .empty)).2.heap
        Sql.showDatabases.tree p ∧
      (yyparse (showDatabases ++ insertThree) [] (.init .empty)).1 = 1 := by
  obtain ⟨p, hroot, hbuilt, hresult⟩ :=
    yyparse_prefix showDatabases_tokens (by decide) insertThree [] .empty
  exact ⟨p, hroot, hbuilt, hresult.trans (if_neg (List.cons_ne_nil _ _))⟩

/-! ## The bottom of the stack

The root is set when `start` is reduced, and `start` is reduced on the empty stack only. -/

theorem reduceBy_ne_shift (yyn : Nat) (s : State) : reduceBy yyn ≠ .shift s := by
  rw [reduceBy]
  split
  · exact nofun
  · exact nofun

theorem entry_of_shift {yyn : Int} {s : State} (hshift : decisionOf yyn = .shift s) :
    yyn ≠ YYFINAL ∧ s.val = yyn.toNat % 134 := by
  rw [decisionOf] at hshift
  split at hshift
  · split at hshift
    · cases hshift
    · exact absurd hshift (reduceBy_ne_shift _ s)
  · split at hshift
    · cases hshift
    · next hfinal =>
        cases hshift
        exact ⟨hfinal, rfl⟩

/-- Nothing is shifted to the final state, which has no items: the parser accepts instead. -/
theorem entry_items : ∀ i : Fin 107, yytable.getD i 0 ≠ YYFINAL →
    itemTable.getD ((yytable.getD i 0).toNat % 134) [] ≠ [] := by
  decide +kernel

theorem shift_items (s : State) (t : Option Terminal) (s' : State)
    (hshift : automaton.action s t = .shift s') : itemsOf s' ≠ [] := by
  -- The default of a state reduces, so the shift comes from `yytable`.
  rcases yybackup_cases s (tokenNumber t) with hdefault | ⟨_, i, _, _, hentry⟩
  · exact absurd (hdefault.symm.trans hshift) (reduceBy_ne_shift _ s')
  · obtain ⟨hfinal, hs⟩ := entry_of_shift (hentry.symm.trans hshift)
    rw [itemsOf, hs]
    exact mt List.map_eq_nil_iff.mp (entry_items i hfinal)

theorem goto_items (s : State) (B : Nonterminal) : itemsOf (automaton.goto s B) ≠ [] := by
  have hdefault : ∀ B : Nonterminal,
      itemTable.getD ((yydefgoto.getD B 0).toNat % 134) [] ≠ [] := by
    decide +kernel
  -- The final state is entered from the state 0, and not with a nonterminal.
  have hfinal : ∀ i : Fin 107, yytable.getD i 0 = YYFINAL →
      yycheck.getD i 0 = 0 ∧ ∀ B : Nonterminal, yypgoto.getD B 0 ≠ i := by
    decide +kernel
  have hgoto : automaton.goto s B = yygoto s B := rfl
  rw [hgoto, yygoto, itemsOf]
  refine mt List.map_eq_nil_iff.mp ?_
  split
  · next hnext =>
      obtain ⟨hpos, hlast, hcheck⟩ := hnext
      rw [YYLAST] at hlast
      obtain ⟨i, hi⟩ : ∃ i : Fin 107, yypgoto.getD B 0 + s = i :=
        ⟨⟨(yypgoto.getD B 0 + s).toNat, by omega⟩, (Int.toNat_of_nonneg hpos).symm⟩
      rw [hi, Int.toNat_natCast] at hcheck ⊢
      refine entry_items i fun hentry => ?_
      obtain ⟨hzero, hne⟩ := hfinal i hentry
      exact hne B (by omega)
  · exact hdefault B

/-- `start` is alone on the stack, and its state expects nothing but the end. -/
theorem start_alone {st : List (State × (Phrase × Nat))}
    {Ys : List (GrammarSymbol Terminal Nonterminal)}
    (hst : Stacked grammar automaton itemsOf phrases Prod.fst st Ys u) {p : Nat}
    (hstates : ∀ e ∈ st, itemsOf e.1 ≠ []) (hmem : (Phrase.start sql, p) ∈ st.map Prod.snd) :
    st.length = 1 ∧ itemsOf (automaton.top st) = [(none, 1)] := by
  -- A state that was entered has an item that was read, that behind `start` only the end.
  have hentered_read : ∀ s : State, s ≠ automaton.initial → itemsOf s ≠ [] →
      ∃ item ∈ itemsOf s, item.2 ≠ 0 := by
    decide +kernel
  have hend_only : ∀ s : State, (none, 1) ∈ itemsOf s → itemsOf s = [(none, 1)] := by
    decide +kernel
  induction hst with
  | nil =>
      cases hmem
  | @cons st Ys u w s v Y d hst henter hitem hd ih =>
      obtain ⟨hentered, hkernel⟩ := henter
      obtain ⟨hitems, hbelow⟩ := List.forall_mem_cons.mp hstates
      obtain ⟨⟨k, i⟩, hread, hpos⟩ := hentered_read s hentered hitems
      obtain ⟨hsymbol, hbefore⟩ := hkernel (k, i) hread hpos
      rcases List.mem_cons.mp hmem with rfl | hmem
      · -- The entry is that of `start`: the parser was at the bottom of the stack.
        obtain rfl := derives_start_symbol hd
        obtain ⟨r, hlhs, hzero⟩ := hitem grammar.start rfl
        obtain ⟨rfl, _⟩ := hst.eq_nil (start_item _ _ hzero rfl r rfl hlhs)
        refine ⟨rfl, hend_only s ?_⟩
        -- The item that was read is that of the end: no rule has `start` on its right side.
        cases k with
        | none =>
            have hone : i - 1 = 0 := by
              have hlt := (List.getElem?_eq_some_iff.mp hsymbol).1
              rw [Grammar.body, List.length_singleton] at hlt
              omega
            rw [show i = 1 by omega] at hread
            exact hread
        | some r =>
            have hmem : symbolNumber (.nonterminal grammar.start) ∈
                (grammar.rhs r).map symbolNumber :=
              List.mem_map_of_mem (List.mem_of_getElem? hsymbol)
            exact absurd hmem (start_notMem_rhs r)
      · -- Nothing is entered from the state behind `start`.
        obtain ⟨_, hend⟩ := ih hbelow hmem
        rw [hend, List.mem_singleton, Prod.mk.injEq] at hbefore
        obtain ⟨rfl, hi⟩ := hbefore
        rw [hi] at hsymbol
        cases hsymbol

/-- A run that exhausts the stack has not set the root. -/
theorem root_of_exhausted (hexhausted : (yyrun w trailing (.init h)).status = .exhausted) :
    (yyrun w trailing (.init h)).state.root = none := by
  by_contra hroot
  obtain ⟨p, hp⟩ := Option.ne_none_iff_exists'.mp hroot
  rw [yyrun_eq] at hp hexhausted
  have hfull : YYMAXDEPTH ≤ (yyphrases w trailing h).stack.length + 1 :=
    run_exhausted _ hexhausted
  obtain ⟨⟨Ys, hfollows⟩, howned⟩ := yyphrases_follows w trailing h
  obtain ⟨sql, hmem⟩ := howned.root p hp
  obtain ⟨u, hst, _⟩ := hfollows.stacked
  rcases List.mem_append.mp hmem with hahead | hstack
  · exact start_notMem_ahead hfollows.proper hahead
  · -- The statement that was read is the only entry of a full stack.
    have hone := (start_alone hst
      (run_states tables_sound goto_items shift_items _ _ _) hstack).1
    rw [hone] at hfull
    exact absurd hfull (by decide)

/-- A statement that does not fit exhausts the stack, whatever comes behind it. -/
theorem exhausted_of_full (htokens : u.map Lexeme.token = startTokens sql)
    (hfull : ¬ startDepth sql + 1 < YYMAXDEPTH) (z : List Lexeme) (trailing : List UInt8)
    (s : ParserState) : (yyrun (u ++ z) trailing s).status = .exhausted := by
  have hC : ((client trailing).ghost phrases).Models phrases Prod.fst := Client.ghost_models rfl
  have hstop := yyparse_stops (u ++ z) trailing s
  rw [yyrun, status_ghost phrases] at hstop
  obtain ⟨n, hexhausted⟩ := (tables_complete.reads_start (L := YYMAXDEPTH) (h := s)
    tables_sound hC (derives_startTokens htokens)
    (start_follow (z.head?.map phrases.kind)) (by decide)).2 (Nat.le_of_not_lt hfull)
  rw [yyrun, status_ghost phrases,
    ← run_unique (m := n) (by rw [hexhausted]; decide) hstop, hexhausted]

/-- `yyparse` leaves a root when the input starts with a statement that fits, and only then. -/
theorem yyparse_root_iff (w : List Lexeme) (trailing : List UInt8) (h : Heap) :
    (yyparse w trailing (.init h)).2.root ≠ none ↔
      ∃ sql u z, w = u ++ z ∧ u.map Lexeme.token = startTokens sql ∧
        startDepth sql + 1 < YYMAXDEPTH := by
  rw [(yyparse_kept w trailing (.init h)).2]
  constructor
  · intro hroot
    obtain ⟨p, hp⟩ := Option.ne_none_iff_exists'.mp hroot
    obtain ⟨sql, u, z, rfl, htokens, _⟩ := yyrun_root hp
    refine ⟨sql, u, z, rfl, htokens, ?_⟩
    by_contra hfull
    exact hroot (root_of_exhausted (exhausted_of_full htokens hfull z trailing (.init h)))
  · rintro ⟨sql, u, z, rfl, htokens, hfit⟩
    obtain ⟨p, hroot, _⟩ := yyrun_prefix htokens hfit z trailing h
    rw [hroot]
    exact Option.some_ne_none p

end Parser
end MiniSQL
