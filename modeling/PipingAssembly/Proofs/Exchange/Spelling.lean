import PipingAssembly.Exchange.Entity

/-!
# The tokens that spell an entity

A parameter is spelled by exactly one sequence of tokens, and an entity of one part by two. The
readers accept exactly the spellings, whatever follows them, and give back what is spelled. The only
semicolon of a spelling is its last token.
-/

namespace PipingAssembly.Exchange

mutual

/-- The tokens of a parameter. -/
def Param.tokens : Param → List Token
  | .text s => [.text s]
  | .reference id => [.reference id]
  | .number x => [.number x]
  | .enumeration s => [.enumeration s]
  | .omitted => [.omitted]
  | .list items => .openParen :: listTokens items
  | .typed name items => .word name :: .openParen :: listTokens items

/-- The tokens of a list of parameters behind its opening parenthesis. -/
def listTokens : List Param → List Token
  | [] => [.closeParen]
  | p :: ps => p.tokens ++ tailTokens ps

/-- The tokens of a list of parameters behind its first parameter. -/
def tailTokens : List Param → List Token
  | [] => [.closeParen]
  | p :: ps => .comma :: (p.tokens ++ tailTokens ps)

end

/-- The tokens of a part. -/
def partTokens (part : String × List Param) : List Token :=
  .word part.1 :: .openParen :: listTokens part.2

/-- The tokens of the parts of a complex entity behind the opening parenthesis. -/
def partsTokens (parts : List (String × List Param)) : List Token :=
  parts.flatMap partTokens ++ [.closeParen]

/-- The tokens that may stand between the equals sign and the semicolon of a statement. -/
inductive SpellsBody : List Token → List (String × List Param) → Prop
  /-- a simple entity -/
  | simple (part : String × List Param) : SpellsBody (partTokens part) [part]
  /-- a complex entity -/
  | complex (parts : List (String × List Param)) :
    SpellsBody (.openParen :: partsTokens parts) parts

/-- The tokens of a statement that gives an entity. -/
def Spells (ts : List Token) (e : Entity) : Prop :=
  ∃ body, SpellsBody body e.parts ∧ e.parts ≠ [] ∧
    ts = .reference e.id :: .equals :: (body ++ [.semicolon])

/-! ### Readings without the bound on what is left -/

section Plain

variable {α : Type} {ts rest : List Token} {a : α}

/-- What has been read and what is left, without the bound on the latter. -/
def plain (read : Option (α × Rest ts)) : Option (α × List Token) :=
  read.map fun (a, r) ↦ (a, r.val)

theorem plain_map {β : Type} {us : List Token} (read : Option (α × Rest ts)) (f : α → β)
    (g : Rest ts → Rest us) (hg : ∀ r, (g r).val = r.val) :
    plain (read.map fun (a, r) ↦ (f a, g r)) = (plain read).map fun (a, r) ↦ (f a, r) := by
  cases read with
  | none => rfl
  | some r => simp [plain, hg]

end Plain

private theorem plain_param?_list (ts : List Token) :
    plain (param? (.openParen :: ts)) =
      (plain (params? ts)).map fun (items, rest) ↦ (.list items, rest) := by
  rw [param?]
  exact plain_map _ _ _ fun _ ↦ rfl

private theorem plain_param?_typed (name : String) (ts : List Token) :
    plain (param? (.word name :: .openParen :: ts)) =
      (plain (params? ts)).map fun (items, rest) ↦ (.typed name items, rest) := by
  rw [param?]
  exact plain_map _ _ _ fun _ ↦ rfl

private theorem plain_params?_nil (ts : List Token) :
    plain (params? (.closeParen :: ts)) = some ([], ts) := by
  rw [params?]
  rfl

private theorem plain_params? (ts : List Token) (h : ∀ us, ts ≠ .closeParen :: us) :
    plain (params? ts) = plain (someParams? ts) := by
  rw [params?]
  exact h

private theorem plain_someParams? (ts : List Token) :
    plain (someParams? ts) =
      match plain (param? ts) with
      | some (p, .comma :: rest) =>
        (plain (someParams? rest)).map fun (ps, rest') ↦ (p :: ps, rest')
      | some (p, .closeParen :: rest) => some ([p], rest)
      | _ => none := by
  rw [someParams?]
  cases param? ts with
  | none => rfl
  | some read =>
    obtain ⟨p, rest, h⟩ := read
    cases rest with
    | nil => rfl
    | cons t rest =>
      cases t with
      | comma => exact plain_map _ _ _ fun _ ↦ rfl
      | _ => rfl

/-! ### What is read is spelled by what has been taken -/

mutual

/-- A parameter that is read is spelled by the tokens in front of what is left. -/
theorem eq_tokens_append_of_param? (ts : List Token) {p : Param} {rest : List Token}
    (h : plain (param? ts) = some (p, rest)) : ts = p.tokens ++ rest := by
  cases ts with
  | nil => simp [param?, plain] at h
  | cons t ts =>
    cases t with
    | openParen =>
      rw [plain_param?_list, Option.map_eq_some_iff] at h
      obtain ⟨⟨items, r⟩, hitems, heq⟩ := h
      cases heq
      rw [Param.tokens, List.cons_append, ← eq_listTokens_append_of_params? ts hitems]
    | word name =>
      cases ts with
      | nil => simp [param?, plain] at h
      | cons u us =>
        cases u with
        | openParen =>
          rw [plain_param?_typed, Option.map_eq_some_iff] at h
          obtain ⟨⟨items, r⟩, hitems, heq⟩ := h
          cases heq
          rw [Param.tokens, List.cons_append, List.cons_append,
            ← eq_listTokens_append_of_params? us hitems]
        | _ => simp [param?, plain] at h
    | closeParen | comma | equals | semicolon | other => simp [param?, plain] at h
    | _ =>
      rw [param?] at h
      cases h
      rfl
termination_by (ts.length, 0)

/-- A list of parameters that is read is spelled by the tokens in front of what is left. -/
theorem eq_listTokens_append_of_params? (ts : List Token) {ps : List Param} {rest : List Token}
    (h : plain (params? ts) = some (ps, rest)) : ts = listTokens ps ++ rest := by
  by_cases hc : ∃ us, ts = .closeParen :: us
  · obtain ⟨us, rfl⟩ := hc
    rw [plain_params?_nil] at h
    cases h
    rfl
  · rw [plain_params? ts (not_exists.mp hc)] at h
    obtain ⟨p, qs, rfl, hts⟩ := eq_tokens_append_of_someParams? ts h
    rw [listTokens, hts]
termination_by (ts.length, 2)

/-- So are the parameters of a list that is not empty. -/
theorem eq_tokens_append_of_someParams? (ts : List Token) {ps : List Param} {rest : List Token}
    (h : plain (someParams? ts) = some (ps, rest)) :
    ∃ p qs, ps = p :: qs ∧ ts = p.tokens ++ tailTokens qs ++ rest := by
  rw [plain_someParams?] at h
  split at h
  · next p us hp =>
    rw [Option.map_eq_some_iff] at h
    obtain ⟨⟨qs, r⟩, hqs, heq⟩ := h
    cases heq
    have hts := eq_tokens_append_of_param? ts hp
    have hlt : us.length < ts.length := by
      rw [hts, List.length_append, List.length_cons]
      omega
    obtain ⟨q, qs, rfl, hus⟩ := eq_tokens_append_of_someParams? us hqs
    refine ⟨p, q :: qs, rfl, ?_⟩
    rw [hts, hus, tailTokens]
    simp
  · next p us hp =>
    cases h
    have hts := eq_tokens_append_of_param? ts hp
    refine ⟨p, [], rfl, ?_⟩
    rw [hts, tailTokens]
    simp
  · cases h
termination_by (ts.length, 1)

end

/-! ### What is spelled is read, whatever follows -/

private theorem tokens_ne_closeParen (p : Param) (rest us : List Token) :
    p.tokens ++ rest ≠ .closeParen :: us := by
  cases p <;> simp [Param.tokens]

mutual

/-- The tokens of a parameter are read as it. -/
theorem param?_tokens (p : Param) (rest : List Token) :
    plain (param? (p.tokens ++ rest)) = some (p, rest) := by
  cases p with
  | list items =>
    rw [Param.tokens, List.cons_append, plain_param?_list, params?_listTokens]
    rfl
  | typed name items =>
    rw [Param.tokens, List.cons_append, List.cons_append, plain_param?_typed, params?_listTokens]
    rfl
  | _ =>
    rw [Param.tokens, List.singleton_append, param?]
    rfl
termination_by sizeOf p

/-- The tokens of a list of parameters are read as it. -/
theorem params?_listTokens (ps : List Param) (rest : List Token) :
    plain (params? (listTokens ps ++ rest)) = some (ps, rest) := by
  cases ps with
  | nil =>
    rw [listTokens, List.singleton_append, plain_params?_nil]
  | cons p ps =>
    rw [listTokens, List.append_assoc, plain_params? _ (tokens_ne_closeParen p _)]
    exact someParams?_tailTokens p ps rest
termination_by sizeOf ps

/-- So are the tokens of a list that is not empty. -/
theorem someParams?_tailTokens (p : Param) (ps : List Param) (rest : List Token) :
    plain (someParams? (p.tokens ++ (tailTokens ps ++ rest))) = some (p :: ps, rest) := by
  rw [plain_someParams?, param?_tokens]
  cases ps with
  | nil => rfl
  | cons q qs =>
    rw [tailTokens, List.cons_append, List.append_assoc]
    dsimp only
    rw [someParams?_tailTokens q qs rest]
    rfl
termination_by sizeOf p + sizeOf ps
decreasing_by
  · have hps : 0 < sizeOf ps := by
      cases ps with
      | nil => decide
      | cons q qs => rw [List.cons.sizeOf_spec]; omega
    omega
  · subst_vars
    simp
    omega

end


/-- Exactly the tokens of a list of parameters are read as it. -/
theorem plain_params?_eq_some {ts rest : List Token} {ps : List Param} :
    plain (params? ts) = some (ps, rest) ↔ ts = listTokens ps ++ rest := by
  constructor
  · exact eq_listTokens_append_of_params? ts
  · rintro rfl
    exact params?_listTokens ps rest

/-! ### Parts and statements -/

private theorem plain_part? (kind : String) (ts : List Token) :
    plain (part? (.word kind :: .openParen :: ts)) =
      (plain (params? ts)).map fun (ps, rest) ↦ ((kind, ps), rest) :=
  plain_map _ _ _ fun _ ↦ rfl

/-- Exactly the tokens of a part are read as it. -/
theorem plain_part?_eq_some {ts rest : List Token} {part : String × List Param} :
    plain (part? ts) = some (part, rest) ↔ ts = partTokens part ++ rest := by
  constructor
  · intro h
    unfold part? at h
    split at h
    · next kind us =>
      obtain ⟨⟨ps, r⟩, hps, heq⟩ := Option.map_eq_some_iff.mp ((plain_part? kind us).symm.trans h)
      cases heq
      rw [plain_params?_eq_some.mp hps]
      rfl
    · cases h
  · rintro rfl
    rw [partTokens, List.cons_append, List.cons_append, plain_part?, params?_listTokens]
    rfl

private theorem plain_parts?_nil (ts : List Token) :
    plain (parts? (.closeParen :: ts)) = some ([], ts) := by
  rw [parts?]
  rfl

private theorem plain_parts? (ts : List Token) (h : ∀ us, ts ≠ .closeParen :: us) :
    plain (parts? ts) =
      match plain (part? ts) with
      | none => none
      | some (p, rest) => (plain (parts? rest)).map fun (ps, rest') ↦ (p :: ps, rest') := by
  rw [parts?]
  · cases part? ts with
    | none => rfl
    | some read => exact plain_map _ _ _ fun _ ↦ rfl
  · exact h

/-- The parts of a complex entity that are read are spelled by the tokens in front of what is left.
-/
theorem eq_partsTokens_append_of_parts? (ts : List Token) {ps : List (String × List Param)}
    {rest : List Token} (h : plain (parts? ts) = some (ps, rest)) :
    ts = partsTokens ps ++ rest := by
  by_cases hc : ∃ us, ts = .closeParen :: us
  · obtain ⟨us, rfl⟩ := hc
    rw [plain_parts?_nil] at h
    cases h
    rfl
  · rw [plain_parts? ts (not_exists.mp hc)] at h
    split at h
    · cases h
    · next p us hp =>
      obtain ⟨⟨qs, r⟩, hqs, heq⟩ := Option.map_eq_some_iff.mp h
      cases heq
      have hts := plain_part?_eq_some.mp hp
      have hlt : us.length < ts.length := by
        rw [hts, partTokens, List.length_append, List.length_cons]
        omega
      rw [hts, eq_partsTokens_append_of_parts? us hqs]
      simp [partsTokens]
termination_by ts.length

/-- The tokens of the parts of a complex entity are read as them. -/
theorem parts?_partsTokens (ps : List (String × List Param)) (rest : List Token) :
    plain (parts? (partsTokens ps ++ rest)) = some (ps, rest) := by
  induction ps with
  | nil => exact plain_parts?_nil rest
  | cons p ps ih =>
    have hts : partsTokens (p :: ps) ++ rest = partTokens p ++ (partsTokens ps ++ rest) := by
      simp [partsTokens]
    have hne (us : List Token) : partTokens p ++ (partsTokens ps ++ rest) ≠ .closeParen :: us := by
      simp [partTokens]
    rw [hts, plain_parts? _ hne, plain_part?_eq_some.mpr rfl]
    dsimp only
    rw [ih]
    rfl

private theorem plain_body?_complex (ts : List Token) :
    plain (body? (.openParen :: ts)) = plain (parts? ts) := by
  rw [body?]
  cases parts? ts <;> rfl

private theorem plain_body?_simple (ts : List Token) (h : ∀ us, ts ≠ .openParen :: us) :
    plain (body? ts) = (plain (part? ts)).map fun (p, rest) ↦ ([p], rest) := by
  unfold body?
  split
  · next us => exact absurd rfl (h us)
  · cases part? ts <;> rfl

/-- The body of a statement is read exactly from what spells it. -/
theorem plain_body?_eq_some {ts rest : List Token} {parts : List (String × List Param)} :
    plain (body? ts) = some (parts, rest) ↔ ∃ us, SpellsBody us parts ∧ ts = us ++ rest := by
  constructor
  · intro h
    by_cases hc : ∃ us, ts = .openParen :: us
    · obtain ⟨us, rfl⟩ := hc
      rw [plain_body?_complex] at h
      refine ⟨_, .complex parts, ?_⟩
      rw [List.cons_append, ← eq_partsTokens_append_of_parts? us h]
    · rw [plain_body?_simple ts (not_exists.mp hc)] at h
      obtain ⟨⟨part, r⟩, hpart, heq⟩ := Option.map_eq_some_iff.mp h
      cases heq
      exact ⟨_, .simple part, plain_part?_eq_some.mp hpart⟩
  · rintro ⟨us, hus, rfl⟩
    cases hus with
    | simple part =>
      rw [plain_body?_simple _ (by simp [partTokens]), plain_part?_eq_some.mpr rfl]
      rfl
    | complex => rw [List.cons_append, plain_body?_complex, parts?_partsTokens]

private theorem plain_statement? (id : EntityId) (ts : List Token) :
    plain (statement? (.reference id :: .equals :: ts)) =
      match plain (body? ts) with
      | some (parts, .semicolon :: rest) =>
        if parts.isEmpty then none else some (⟨id, parts⟩, rest)
      | _ => none := by
  rw [statement?]
  cases body? ts with
  | none => rfl
  | some read =>
    obtain ⟨parts, rest, h⟩ := read
    cases rest with
    | nil => rfl
    | cons t rest =>
      cases t with
      | semicolon => cases parts <;> rfl
      | _ => rfl

/-- An entity is read exactly from what spells it, whatever follows. -/
theorem plain_statement?_eq_some {ts rest : List Token} {e : Entity} :
    plain (statement? ts) = some (e, rest) ↔ ∃ us, Spells us e ∧ ts = us ++ rest := by
  constructor
  · intro h
    have hts : ∃ id us, ts = .reference id :: .equals :: us := by
      unfold statement? at h
      split at h
      · exact ⟨_, _, rfl⟩
      · cases h
    obtain ⟨id, us, rfl⟩ := hts
    rw [plain_statement?] at h
    split at h
    · next parts r hbody =>
      obtain ⟨body, hspells, rfl⟩ := plain_body?_eq_some.mp hbody
      split at h
      · cases h
      · next hne =>
        cases h
        refine ⟨_, ⟨body, hspells, ?_, rfl⟩, ?_⟩
        · simpa using hne
        · simp
    · cases h
  · rintro ⟨us, ⟨body, hspells, hne, rfl⟩, rfl⟩
    have hbody : plain (body? (body ++ .semicolon :: rest)) = some (e.parts, .semicolon :: rest) :=
      plain_body?_eq_some.mpr ⟨body, hspells, rfl⟩
    rw [List.cons_append, List.cons_append, List.append_assoc, plain_statement?,
      List.singleton_append, hbody]
    simp [hne]

/-- All of some tokens are read as one statement exactly if they spell its entity. -/
theorem reads_all_iff_spells {ts : List Token} {e : Entity} :
    (∃ h, statement? ts = some (e, ⟨[], h⟩)) ↔ Spells ts e := by
  have hplain :
      (∃ h, statement? ts = some (e, ⟨[], h⟩)) ↔ plain (statement? ts) = some (e, []) := by
    rw [plain, Option.map_eq_some_iff]
    constructor
    · rintro ⟨h, hread⟩
      exact ⟨_, hread, rfl⟩
    · rintro ⟨⟨f, rest, h⟩, hread, heq⟩
      cases heq
      exact ⟨h, hread⟩
  rw [hplain, plain_statement?_eq_some]
  constructor
  · rintro ⟨us, hus, rfl⟩
    rwa [List.append_nil]
  · intro h
    exact ⟨ts, h, (List.append_nil ts).symm⟩

/-! ### Semicolons in spellings -/

mutual

/-- No parameter has a semicolon, however deep it is. -/
theorem semicolon_notMem_tokens (p : Param) : .semicolon ∉ p.tokens := by
  cases p with
  | list items => simpa [Param.tokens] using semicolon_notMem_listTokens items
  | typed name items => simpa [Param.tokens] using semicolon_notMem_listTokens items
  | _ => simp [Param.tokens]

/-- Nor has a list of parameters. -/
theorem semicolon_notMem_listTokens (ps : List Param) : .semicolon ∉ listTokens ps := by
  cases ps with
  | nil => simp [listTokens]
  | cons p ps =>
    rw [listTokens, List.mem_append]
    exact not_or.mpr ⟨semicolon_notMem_tokens p, semicolon_notMem_tailTokens ps⟩

/-- Nor has what follows the first parameter of a list. -/
theorem semicolon_notMem_tailTokens (ps : List Param) : .semicolon ∉ tailTokens ps := by
  cases ps with
  | nil => simp [tailTokens]
  | cons p ps =>
    have hp := semicolon_notMem_tokens p
    have hps := semicolon_notMem_tailTokens ps
    simp [tailTokens, hp, hps]

end

theorem semicolon_notMem_partTokens (part : String × List Param) :
    .semicolon ∉ partTokens part := by
  simpa [partTokens] using semicolon_notMem_listTokens part.2

/-- A statement has a semicolon as its last token and nowhere else. -/
theorem Spells.eq_append_semicolon {ts : List Token} {e : Entity} (h : Spells ts e) :
    ∃ front, .semicolon ∉ front ∧ ts = front ++ [.semicolon] := by
  obtain ⟨body, hbody, -, rfl⟩ := h
  refine ⟨.reference e.id :: .equals :: body, ?_, rfl⟩
  have hb : .semicolon ∉ body := by
    generalize e.parts = parts at hbody
    cases hbody with
    | simple part => exact semicolon_notMem_partTokens part
    | complex =>
      simpa [partsTokens] using fun k ps _ ↦ semicolon_notMem_partTokens (k, ps)
  simpa using hb

end PipingAssembly.Exchange
