import PipingAssembly.Proofs.Yaml.Trees

/-!
# Trees read back from their documents

The tokens of a tree are read as nodes of the same shape, so that a tree of fields comes back from
the document it is written to.
-/

namespace PipingAssembly.Yaml

/-! ### Nodes of trees -/

mutual

/-- Whether a node has the shape of a tree. -/
def IsNodeOf : Value → Node → Prop
  | .text s, n => ∃ place, n = .scalar place none s (scalarStyle false s == .plain)
  | .int k, n => ∃ place, n = .scalar place none (toString k) true
  | .object fields, n =>
    ∃ place entries, n = .mapping place none entries ∧ AreEntriesOf fields entries
  | _, _ => False

/-- Whether entries have the keys of fields and the shapes of their values. -/
def AreEntriesOf : List (String × Value) → List (Node × Node) → Prop
  | [], es => es = []
  | (key, v) :: rest, es => ∃ place n es',
    es = (.scalar place none key true, n) :: es' ∧ IsNodeOf v n ∧ AreEntriesOf rest es'

end

namespace Reading

/-- Whether tokens are left. -/
def Holds (r : Reading) (ts : List Token) : Prop := r.tokens.list.map (·.1) = ts

variable {r : Reading} {t : Token} {ts : List Token}

theorem Holds.exists_peek (h : r.Holds (t :: ts)) :
    ∃ place, r.peek = .ok (t, place) ∧ r.skip.Holds ts := by
  obtain ⟨⟨_, place⟩, list, hlist, rfl, hts⟩ := List.map_eq_cons_iff.mp h
  refine ⟨place, ?_, ?_⟩
  · rw [peek, hlist]
  · rw [Holds, skip, hlist]
    exact hts

/-- A node without an anchor and a tag begins where it is read from. -/
private theorem properties_eq {place : Place} (h : r.peek = .ok (t, place))
    (ht : t = .blockMappingStart ∨ ∃ text isPlain, t = .scalar text isPlain) :
    r.properties = .ok (none, none, r) := by
  have hanchor : r.anchor = .ok (none, r) := by
    rw [anchor, h]
    obtain rfl | ⟨text, isPlain, rfl⟩ := ht <;> rfl
  have htag : r.tag = .ok (none, r) := by
    rw [tag, h]
    obtain rfl | ⟨text, isPlain, rfl⟩ := ht <;> rfl
  rw [properties, hanchor]
  simp only [bind, Except.bind, htag, Option.isNone_none, if_true, hanchor, h, tagText]
  rfl

/-- A scalar is read as its node. -/
theorem node_scalar {text : String} {isPlain : Bool} (block indentless : Bool) (fuel : Nat)
    (h : r.Holds (.scalar text isPlain :: ts)) :
    ∃ place, node block indentless (fuel + 1) r =
      .ok (.scalar place none text isPlain, r.skip) ∧ r.skip.Holds ts := by
  obtain ⟨place, hpeek, hskip⟩ := h.exists_peek
  refine ⟨place, ?_, hskip⟩
  rw [node, hpeek]
  simp only [bind, Except.bind, properties_eq hpeek (Or.inr ⟨text, isPlain, rfl⟩), hpeek]
  rfl

/-- A block of entries is read as a mapping. -/
theorem node_mapping {entries : List (Node × Node)} {fuel : Nat} {r' : Reading}
    (indentless : Bool) (h : r.Holds (.blockMappingStart :: ts))
    (hentries : blockEntries fuel r.skip = .ok (entries, r')) :
    ∃ place, node true indentless (fuel + 1) r = .ok (.mapping place none entries, r') := by
  obtain ⟨place, hpeek, hskip⟩ := h.exists_peek
  refine ⟨place, ?_⟩
  rw [node, hpeek]
  simp only [bind, Except.bind, properties_eq hpeek (Or.inl rfl), hpeek, hentries]
  cases indentless <;> rfl

/-- A node that some token ends is read where it begins with another token. -/
theorem nodeUnless_eq {block indentless : Bool} {ends : List Token} (fuel : Nat)
    (h : r.Holds (t :: ts)) (ht : ends.contains t = false) :
    nodeUnless block indentless ends (fuel + 1) r = node block indentless fuel r := by
  obtain ⟨place, hpeek, -⟩ := h.exists_peek
  rw [nodeUnless, hpeek]
  simp only [bind, Except.bind, ht]
  rfl

/-- The tokens of a tree begin with one that no entry begins or ends with. -/
private theorem exists_tokensOf_cons {v : Value} (hv : IsTree v) :
    ∃ t ts, tokensOf v = t :: ts ∧ [Token.key, .value, .blockEnd].contains t = false := by
  cases v with
  | text s => exact ⟨_, _, rfl, rfl⟩
  | int n => exact ⟨_, _, rfl, rfl⟩
  | object fields => exact ⟨_, _, rfl, rfl⟩
  | _ => exact hv.elim

/-- An entry of a block is read as its key, its value and the entries behind it. -/
private theorem exists_blockEntries_cons {key : String} {v : Value} (fuel : Nat) (hv : IsTree v)
    (h : r.Holds (.key :: .scalar key true :: .value :: (tokensOf v ++ ts))) :
    ∃ place r', r'.Holds (tokensOf v ++ ts) ∧ ∀ {n r₁ entries r₂},
      node true true fuel r' = .ok (n, r₁) → blockEntries (fuel + 2) r₁ = .ok (entries, r₂) →
      blockEntries (fuel + 3) r = .ok ((.scalar place none key true, n) :: entries, r₂) := by
  obtain ⟨t, ts', hts, hends⟩ := exists_tokensOf_cons hv
  obtain ⟨_, hpeek, hkey⟩ := h.exists_peek
  obtain ⟨place, hnode, hcolon⟩ := node_scalar true true fuel hkey
  obtain ⟨_, hpeek', hrest⟩ := hcolon.exists_peek
  refine ⟨place, _, hrest, fun hvalue hentries ↦ ?_⟩
  rw [hts, List.cons_append] at hrest
  have hscalar : [Token.key, .value, .blockEnd].contains (.scalar key true) = false := rfl
  rw [blockEntries, hpeek]
  simp only [bind, Except.bind, nodeUnless_eq _ hkey hscalar, hnode]
  rw [entryValue, hpeek']
  simp only [bind, Except.bind, nodeUnless_eq _ hrest hends, hvalue, hentries]
  rfl

mutual

/-- The tokens of a tree are read as a node of its shape. -/
theorem exists_node_tree : ∀ {v : Value}, IsTree v → ∀ (indentless : Bool) (fuel : Nat)
    {r : Reading} {ts : List Token}, r.Holds (tokensOf v ++ ts) → (tokensOf v).length ≤ fuel →
    ∃ n r', node true indentless fuel r = .ok (n, r') ∧ IsNodeOf v n ∧ r'.Holds ts
  | .text s, _, indentless, fuel + 1, r, ts, h, _ => by
    obtain ⟨place, hnode, hskip⟩ := node_scalar true indentless fuel h
    exact ⟨_, _, hnode, ⟨place, rfl⟩, hskip⟩
  | .int k, _, indentless, fuel + 1, r, ts, h, _ => by
    obtain ⟨place, hnode, hskip⟩ := node_scalar true indentless fuel h
    exact ⟨_, _, hnode, ⟨place, rfl⟩, hskip⟩
  | .object fields, ⟨_, hfields⟩, indentless, fuel + 1, r, ts, h, hfuel => by
    rw [tokensOf, List.cons_append, List.append_assoc] at h
    simp only [tokensOf, List.length_cons, List.length_append, List.length_nil] at hfuel
    obtain ⟨_, _, hskip⟩ := h.exists_peek
    obtain ⟨entries, r', hentries, hshape, hrest⟩ :=
      exists_blockEntries hfields fuel hskip (by omega)
    obtain ⟨place, hnode⟩ := node_mapping indentless h hentries
    exact ⟨_, _, hnode, ⟨place, entries, rfl, hshape⟩, hrest⟩

/-- The tokens of fields are read as entries of their shape. -/
theorem exists_blockEntries : ∀ {fields : List (String × Value)}, AreTrees fields →
    ∀ (fuel : Nat) {r : Reading} {ts : List Token},
    r.Holds (fieldTokens fields ++ .blockEnd :: ts) → (fieldTokens fields).length + 1 ≤ fuel →
    ∃ entries r', blockEntries fuel r = .ok (entries, r') ∧ AreEntriesOf fields entries ∧
      r'.Holds ts
  | [], _, fuel + 1, r, ts, h, _ => by
    obtain ⟨place, hpeek, hskip⟩ := h.exists_peek
    refine ⟨[], r.skip, ?_, rfl, hskip⟩
    rw [blockEntries, hpeek]
    rfl
  | (key, v) :: fields, ⟨_, hv, hfields⟩, fuel, r, ts, h, hfuel => by
    simp only [fieldTokens, List.length_cons, List.length_append] at hfuel
    obtain ⟨fuel, rfl⟩ := Nat.exists_eq_add_of_le' (show 3 ≤ fuel by omega)
    rw [fieldTokens, List.cons_append, List.cons_append, List.cons_append, List.append_assoc] at h
    obtain ⟨place, r₀, hvalue, hentry⟩ := exists_blockEntries_cons fuel hv h
    obtain ⟨n, r₁, hnode, hshape, hrest⟩ := exists_node_tree hv true fuel hvalue (by omega)
    obtain ⟨entries, r₂, hentries, hshapes, hend⟩ :=
      exists_blockEntries hfields (fuel + 2) hrest (by omega)
    exact ⟨_, _, hentry hnode hentries, ⟨place, n, entries, rfl, hshape, hshapes⟩, hend⟩

end

end Reading

/-! ### Documents of trees -/

/-- The lines of a document follow one another. -/
private theorem toList_join_lines (ls : List String) :
    (String.join (ls.map (· ++ "\n"))).toList = linesIn 0 (charLines ls) := by
  rw [String.toList_join, linesIn, charLines, List.flatMap_map, List.flatMap_map]
  refine List.flatMap_congr fun l _ ↦ ?_
  rw [String.toList_append, lineIn]
  by_cases hl : l.toList = []
  · rw [if_pos hl, hl]
    rfl
  · rw [if_neg hl]
    rfl

/-- A first token that opens a block opens a document without directives. -/
private theorem onlyDocument_of_node {tokens : Tokens} {n : Node} {r : Reading} {ts : List Token}
    (hstart : (⟨tokens, [], defaultHandles⟩ : Reading).Holds (.blockMappingStart :: ts))
    (hnode : Reading.node true false (4 * tokens.list.length + 4) ⟨tokens, [], defaultHandles⟩ =
      .ok (n, r)) (hend : r.Holds [.textEnd]) :
    Reading.onlyDocument tokens = .ok (some n) := by
  obtain ⟨place, hpeek, -⟩ := hstart.exists_peek
  obtain ⟨⟨_, place₀⟩, list, hlist, rfl, -⟩ := List.map_eq_cons_iff.mp hstart
  obtain ⟨place', hpeek', -⟩ := hend.exists_peek
  obtain ⟨⟨_, place₁⟩, list', hlist', rfl, -⟩ := List.map_eq_cons_iff.mp hend
  have hdirectives : Reading.directives false [] tokens.list = .ok ([], tokens.list) := by
    rw [hlist]
    rfl
  have hremaining : r.remaining = .ok r.tokens.list := by
    rw [Reading.remaining, hpeek']
    rfl
  have hfirst : Reading.firstDocument tokens = .ok (some n, r.tokens.list) := by
    rw [Reading.firstDocument]
    simp only [bind, Except.bind, hdirectives, List.nil_append, hpeek, ne_eq, not_true_eq_false,
      if_false, hnode, hremaining]
    rfl
  rw [Reading.onlyDocument, hfirst, hlist']
  rfl

/-- A tree of fields is read back as one document of its shape. -/
theorem document_render {fields : List (String × Value)} (hne : fields ≠ [])
    (h : AreTrees fields) :
    ∃ n, document (render (.object fields)) = .ok (some n) ∧ IsNodeOf (.object fields) n := by
  have hlines : lines (.object fields) = fieldLines fields := by
    obtain ⟨e, fields, rfl⟩ := List.exists_cons_of_ne_nil hne
    rw [lines]
    simp
  have htokens := tokens_ofText hne h
  rw [← toList_join_lines, ← hlines, ← render] at htokens
  let tokens := Tokens.ofText (render (.object fields)).toList
  have hlength : tokens.list.length = (tokensOf (.object fields)).length + 1 := by
    rw [← List.length_map (·.1), htokens, List.length_append, List.length_singleton]
  obtain ⟨n, r, hnode, hshape, hend⟩ := Reading.exists_node_tree (v := .object fields) ⟨hne, h⟩
    false (4 * tokens.list.length + 4) (r := ⟨tokens, [], defaultHandles⟩) htokens (by omega)
  exact ⟨n, onlyDocument_of_node htokens hnode hend, hshape⟩

/-! ### Values of trees -/

mutual

/-- The value that a tree is read back as: what is written without quotes has no type of its own. -/
def reopened : Value → Value
  | .text s => if scalarStyle false s == .plain then .plain s else .text s
  | .int n => .plain (toString n)
  | .object fields => .object (reopenedFields fields)
  | v => v

/-- The fields whose values trees are read back as. -/
def reopenedFields : List (String × Value) → List (String × Value)
  | [] => []
  | (key, v) :: rest => (key, reopened v) :: reopenedFields rest

end

mutual

theorem IsNodeOf.toValue_eq : ∀ {v : Value} {n : Node}, IsNodeOf v n → n.toValue = reopened v
  | .text s, _, ⟨place, rfl⟩ => rfl
  | .int k, _, ⟨place, rfl⟩ => rfl
  | .object fields, _, ⟨place, entries, rfl, h⟩ => by
    rw [Node.toValue, h.entryValues_eq]
    rfl

theorem AreEntriesOf.entryValues_eq : ∀ {fields : List (String × Value)}
    {entries : List (Node × Node)}, AreEntriesOf fields entries →
    entryValues entries = some (reopenedFields fields)
  | [], _, rfl => rfl
  | (key, v) :: rest, _, ⟨place, n, entries, rfl, hv, hrest⟩ => by
    simp only [entryValues, hrest.entryValues_eq, hv.toValue_eq, reopenedFields]

end

/-- A tree of fields comes back from its document, with the types of what has no quotes left
open. -/
theorem readRecord?_render {fields : List (String × Value)} (hne : fields ≠ [])
    (h : AreTrees fields) :
    readRecord? (render (.object fields)) = some (reopened (.object fields)) := by
  obtain ⟨n, hdocument, hshape⟩ := document_render hne h
  rw [readRecord?, hdocument, ← hshape.toValue_eq]
  rfl

end PipingAssembly.Yaml
