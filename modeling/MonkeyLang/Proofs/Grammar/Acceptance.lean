import Mathlib.Logic.ExistsUnique
import MonkeyLang.Proofs.Grammar.Joining
import MonkeyLang.Proofs.Grammar.Unambiguous

/-!
# Parsing accepts the grammar

With a limit on nesting that the text cannot reach, parsing meets no error exactly on the texts
whose tokens are a program of the grammar, and it returns the trees of the one derivation in
which minus signs join. Reading gives both directions for derivations in which they do; that
every program has one is `DerivesProgram.exists_minusJoins`, and that it has no other is
`MinusJoins.eq_of_derivesProgram`.
-/

namespace MonkeyLang

/-- A clause costs no more levels than the tokens of its program are many. -/
theorem DerivesProgram.cost_le_length {ts : List Token} {cs : List Clause}
    (h : DerivesProgram ts cs) {c : Clause} (hc : c ∈ cs) : c.value.cost ≤ ts.length := by
  obtain ⟨-, rfl⟩ := h
  have inside : c.value.tokens.Sublist c.tokens :=
    (List.sublist_append_left c.value.tokens _).trans (List.sublist_append_right _ _)
  have among : c.tokens.Sublist (cs.flatMap Clause.tokens) :=
    List.sublist_flatten_of_mem (List.mem_map_of_mem hc)
  exact c.value.cost_le_length_tokens.trans (inside.trans among).length_le

/-- **Parsing accepts exactly the programs of the grammar**, with a limit above the number of
tokens, and gives the trees of the one derivation in which minus signs join. -/
theorem parse_accepts_iff_derivesProgram {config : Config} {source : String}
    (room : (tokenize source).dropLast.length < config.maxDepth) :
    ((parse config source).errors = [] ↔
        ∃ cs, DerivesProgram (tokenize source).dropLast cs) ∧
      ((parse config source).errors = [] →
        (∃! cs, DerivesProgram (tokenize source).dropLast cs ∧ MinusJoins cs) ∧
          ∀ cs, DerivesProgram (tokenize source).dropLast cs → MinusJoins cs →
            (parse config source).program.statements = cs.map Clause.tree) := by
  rw [dropLast_tokenize] at room ⊢
  have accepts : ∀ {cs}, DerivesProgram (Cursor.start source).pending cs → MinusJoins cs →
      parse config source = ⟨⟨cs.map Clause.tree⟩, []⟩ := fun h hm ↦
    parse_of_derivesProgram h hm fun c hc ↦ (h.cost_le_length hc).trans room.le
  constructor
  · constructor
    · intro h
      obtain ⟨cs, hcs, -⟩ := exists_derivesProgram_of_parse h
      exact ⟨cs, hcs⟩
    · rintro ⟨cs, hcs⟩
      obtain ⟨ds, hds, hm⟩ := hcs.exists_minusJoins
      rw [accepts hds hm]
  · intro h
    obtain ⟨cs, hcs, hm, -⟩ := exists_derivesProgram_of_parse h
    refine ⟨⟨cs, ⟨hcs, hm⟩, fun ds hds ↦ ?_⟩, fun ds hds hm' ↦ ?_⟩
    · exact hds.2.eq_of_derivesProgram hm hds.1 hcs
    · rw [accepts hds hm']

/-- A text in which a minus could open a statement but joins, and another could not. -/
theorem parse_accepts_joined_minus :
    (tokenize "let a = -b -c*d; -e (f) return !g == h<1").dropLast.length < 256 ∧
      (parse ⟨256⟩ "let a = -b -c*d; -e (f) return !g == h<1").errors = [] ∧
        ∃! cs, DerivesProgram (tokenize "let a = -b -c*d; -e (f) return !g == h<1").dropLast cs ∧
          MinusJoins cs := by
  have room : (tokenize "let a = -b -c*d; -e (f) return !g == h<1").dropLast.length <
      (⟨256⟩ : Config).maxDepth := by decide +kernel
  have clean : (parse ⟨256⟩ "let a = -b -c*d; -e (f) return !g == h<1").errors = [] := by
    decide +kernel
  exact ⟨room, clean, ((parse_accepts_iff_derivesProgram room).2 clean).1⟩

end MonkeyLang
