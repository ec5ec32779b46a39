import Mathlib.Data.List.Forall2
import MonkeyLang.Proofs.Diagnostic.Citation
import MonkeyLang.Proofs.Reading.Front

/-!
# Where tokens stand is no matter

Of its tokens a parse sees the kinds and the texts, which `Token.face` puts together, and not the
places. So two texts whose tokens have the same faces, however they are spaced and broken into
lines, have the same program, and the same errors, each at the tokens that it cites in either text
(`parse_of_faces_eq`).

Tokens of a text stand at different places, so two lists of tokens with the same faces are the same
up to a function on places (`Token.exists_place`). What a change of places does to a program is
`Frame.program_mapSpan`. It moves an error with the token that the error cites, and a token and the
token it becomes have the same index.
-/

namespace MonkeyLang

/-! ### Tokens without their places -/

namespace Token

/-- What a parse sees of a token: its kind and its text. -/
def face (t : Token) : TokenKind × String := (t.kind, t.text)

/-- A token with the face of another one is that one at its own place. -/
theorem eq_mapSpan_of_face_eq {t u : Token} (h : u.face = t.face) {place : Span → Span}
    (hp : place t.span = u.span) : u = t.mapSpan place := by
  obtain ⟨kind, text, span⟩ := u
  obtain ⟨rfl, rfl⟩ := Prod.mk.inj h
  exact congrArg (Token.mk t.kind t.text) hp.symm

/-- **Tokens with the same faces differ by a function on places**, if no two of them stand at the
same one. -/
theorem exists_place {ts us : List Token} (h : us.map face = ts.map face)
    (apart : (ts.map Token.span).Nodup) : ∃ place, us = ts.map (Token.mapSpan place) := by
  induction ts generalizing us with
  | nil => exact ⟨id, List.map_eq_nil_iff.1 h⟩
  | cons t ts ih =>
    rcases us with - | ⟨u, us⟩
    · cases h
    obtain ⟨face_eq, faces_eq⟩ := List.cons.inj h
    obtain ⟨alone, apart⟩ := List.nodup_cons.1 apart
    obtain ⟨place, rfl⟩ := ih faces_eq apart
    have here := Function.update_self t.span u.span place
    refine ⟨Function.update place t.span u.span,
      congrArg₂ List.cons (eq_mapSpan_of_face_eq face_eq here) (List.map_congr_left ?_)⟩
    intro v hv
    have other : v.span ≠ t.span := fun same ↦ alone (same ▸ List.mem_map_of_mem hv)
    rw [mapSpan, mapSpan, Function.update_of_ne other]

end Token

/-- The tokens of a text stand at different places. -/
theorem nodup_spans_tokenize (source : String) : ((tokenize source).map Token.span).Nodup :=
  List.pairwise_map.2 ((Cursor.start source).pairwise_tokens.imp fun before same ↦
    Nat.ne_of_lt before (congrArg Span.start same))

/-! ### Programs without the places of their tokens -/

/-- A text whose tokens are those of another text at other places has the same program, and its
errors stand at those places. -/
theorem parse_of_tokenize_eq {a b : String} {place : Span → Span}
    (h : tokenize b = (tokenize a).map (.mapSpan place)) (config : Config) :
    parse config b =
      ⟨(parse config a).program, (parse config a).errors.map (.mapSpan place)⟩ := by
  rw [tokenize, tokenize, Cursor.tokens, Cursor.tokens, List.map_append] at h
  obtain ⟨pending_eq, ends⟩ := List.append_inj' h rfl
  obtain ⟨statements, errors⟩ := Frame.program_mapSpan (f := sourceFrame config a)
    (List.singleton_inj.1 ends) (Cursor.start a).pending
  rw [parse_eq, parse_eq, pending_eq]
  exact congrArg₂ (fun ss es ↦ (⟨⟨ss⟩, es⟩ : ParseOutput)) statements errors

/-- Errors of two texts are alike if they have the same cause and cite tokens that have the same
index among the tokens of either text. -/
structure ParseError.Alike (a b : String) (e e' : ParseError) : Prop where
  cause_eq : e'.cause = e.cause
  same_index : ∃ (i : Nat) (t u : Token), (tokenize a)[i]? = some t ∧ (tokenize b)[i]? = some u ∧
    e.span = t.span ∧ e'.span = u.span

/-- An error of a text is alike to the one that it becomes where the tokens stand at other
places. -/
theorem ParseError.alike_mapSpan {a b : String} {place : Span → Span}
    (h : tokenize b = (tokenize a).map (.mapSpan place)) {config : Config} {e : ParseError}
    (he : e ∈ (parse config a).errors) : Alike a b e (e.mapSpan place) := by
  obtain ⟨cited, inside, hc⟩ := Frame.exists_cites_of_mem_errors he
  obtain ⟨i, hi⟩ : ∃ i, (tokenize a)[i]? = some ((sourceFrame config a).facing cited) :=
    List.mem_iff_getElem?.1 (Frame.facing_mem (inside.trans (citable_suffix _)))
  have moved : (tokenize b)[i]? = some (((sourceFrame config a).facing cited).mapSpan place) := by
    rw [h, List.getElem?_map, hi, Option.map_some]
  exact ⟨rfl, i, _, _, hi, moved, hc.span_eq, congrArg place hc.span_eq⟩

/-- **A parse sees the tokens, never the layout**: two texts whose tokens have the same kinds and
texts, whatever stands between them, have the same program, and errors that are alike one by
one. -/
theorem parse_of_faces_eq {a b : String}
    (h : (tokenize a).map Token.face = (tokenize b).map Token.face) (config : Config) :
    (parse config a).program = (parse config b).program ∧
      List.Forall₂ (ParseError.Alike a b) (parse config a).errors (parse config b).errors := by
  obtain ⟨place, placed⟩ := Token.exists_place h.symm (nodup_spans_tokenize a)
  rw [parse_of_tokenize_eq placed]
  refine ⟨rfl, List.forall₂_map_right_iff.2 (List.forall₂_same.2 fun e he ↦ ?_)⟩
  exact ParseError.alike_mapSpan placed he

/-- A binding without its sign, an expression on its own and one that breaks off, in one line and
in several: the errors cite the second token behind `let` and the end of the input. -/
theorem parse_of_faces_eq_lines :
    (tokenize "let x 5; -y 1 +").map Token.face =
        (tokenize "let\n  x\n  5 ;\n- y\n1+\n").map Token.face ∧
      ((parse ⟨8⟩ "let x 5; -y 1 +").program = (parse ⟨8⟩ "let\n  x\n  5 ;\n- y\n1+\n").program ∧
        List.Forall₂ (ParseError.Alike "let x 5; -y 1 +" "let\n  x\n  5 ;\n- y\n1+\n")
          (parse ⟨8⟩ "let x 5; -y 1 +").errors
          (parse ⟨8⟩ "let\n  x\n  5 ;\n- y\n1+\n").errors) ∧
      (parse ⟨8⟩ "let x 5; -y 1 +").errors.length = 2 := by
  have faces : (tokenize "let x 5; -y 1 +").map Token.face =
      (tokenize "let\n  x\n  5 ;\n- y\n1+\n").map Token.face := by
    decide +kernel
  exact ⟨faces, parse_of_faces_eq faces ⟨8⟩, by decide +kernel⟩

end MonkeyLang
