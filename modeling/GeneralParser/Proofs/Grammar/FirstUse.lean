import GeneralParser.Proofs.Grammar.Defined

/-!
# The first undefined nonterminal

The rules of a grammar come in any order, and those for different nonterminals may alternate. They
are looked at by their heads: the head that was given a rule first comes first, with all its rules
in the order in which they were added, and the symbols of each from left to right. A graph can be
built unless an undefined nonterminal is used, and then the first such use is the one that is
reported.
-/

namespace GeneralParser

variable [PatternEngine]

/-- A use of the nonterminal `name`, as symbol number `symbol` of rule number `rule`, which is a
rule for `head`. -/
structure Use where
  head : String
  rule : Nat
  symbol : Nat
  name : String
  deriving DecidableEq

/-- The error that reports a use. -/
def Use.error (u : Use) : UndefinedNonterminal := ⟨u.name, u.head⟩

namespace Rules

section

variable (rules : List (String × List Symbol))

/-- There is a rule for the nonterminal `name`. -/
def Defines (name : String) : Prop := ∃ body, (name, body) ∈ rules

/-- The use occurs in the rules. -/
def Occurs (u : Use) : Prop :=
  ∃ body, rules[u.rule]? = some (u.head, body) ∧ body[u.symbol]? = some (.nonterminal u.name)

/-- The number of the first rule for `head`. -/
def declaration (head : String) : Nat := rules.findIdx fun e => e.1 = head

/-- One use is looked at before another. -/
inductive Before (u v : Use) : Prop
  /-- The nonterminal it is used for was given a rule earlier. -/
  | head : declaration rules u.head < declaration rules v.head → Before u v
  /-- It occurs in an earlier rule for the same nonterminal. -/
  | rule : u.head = v.head → u.rule < v.rule → Before u v
  /-- It stands further to the left in the same rule. -/
  | symbol : u.head = v.head → u.rule = v.rule → u.symbol < v.symbol → Before u v

/-- The use is the first one of an undefined nonterminal. -/
structure FirstUndefined (u : Use) : Prop where
  occurs : Occurs rules u
  undefined : ¬ Defines rules u.name
  first {v : Use} : Occurs rules v → ¬ Defines rules v.name → v ≠ u → Before rules u v

end

variable {share : Bool} {rules : List (String × List Symbol)} {A : String} {body : List Symbol}

/-! ### The order of uses -/

lemma Before.asymm {u v : Use} (h : Before rules u v) : ¬ Before rules v u := by
  intro h'
  cases h with
  | head hlt =>
    cases h' with
    | head hlt' => exact Nat.lt_asymm hlt hlt'
    | rule heq | symbol heq => exact absurd (heq ▸ hlt) (Nat.lt_irrefl _)
  | rule heq hlt =>
    cases h' with
    | head hlt' => exact absurd (heq ▸ hlt') (Nat.lt_irrefl _)
    | rule _ hlt' => exact Nat.lt_asymm hlt hlt'
    | symbol _ hrule => exact absurd (hrule ▸ hlt) (Nat.lt_irrefl _)
  | symbol heq hrule hlt =>
    cases h' with
    | head hlt' => exact absurd (heq ▸ hlt') (Nat.lt_irrefl _)
    | rule _ hlt' => exact absurd (hrule ▸ hlt') (Nat.lt_irrefl _)
    | symbol _ _ hlt' => exact Nat.lt_asymm hlt hlt'

lemma FirstUndefined.unique {u v : Use} (hu : FirstUndefined rules u)
    (hv : FirstUndefined rules v) : u = v := by
  by_contra hne
  have huv := hu.first hv.occurs hv.undefined (Ne.symm hne)
  exact huv.asymm (hv.first hu.occurs hu.undefined hne)

/-! ### Heads in order -/

lemma declaration_lt_length (h : Defines rules A) : declaration rules A < rules.length := by
  obtain ⟨body, hmem⟩ := h
  exact List.findIdx_lt_length_of_exists ⟨_, hmem, by simp⟩

/-- Further rules do not change where a nonterminal was declared. -/
lemma declaration_append (h : Defines rules A) (rest : List (String × List Symbol)) :
    declaration (rules ++ rest) A = declaration rules A := by
  rw [declaration, List.findIdx_append]
  exact if_pos (declaration_lt_length h)

/-- A nonterminal without rules is declared by the next rule for it. -/
lemma declaration_concat (h : ¬ Defines rules A) :
    declaration (rules ++ [(A, body)]) A = rules.length := by
  have hnone : rules.findIdx (fun e => e.1 = A) = rules.length := by
    rw [List.findIdx_eq_length]
    intro e he
    simp only [decide_eq_false_iff_not]
    rintro rfl
    exact h ⟨e.2, he⟩
  rw [declaration, List.findIdx_append, hnone, if_neg (Nat.lt_irrefl _)]
  simp

lemma heads_addBody (ps : List Production) : (addBody A body ps).map Production.head =
    if A ∈ ps.map Production.head then ps.map Production.head
    else ps.map Production.head ++ [A] := by
  induction ps with
  | nil => simp [addBody]
  | cons p ps ih =>
    rw [addBody]
    split
    next hp => simp [hp]
    next hne =>
      simp only [List.map_cons, ih, List.mem_cons, Ne.symm hne, false_or]
      split <;> rfl

lemma heads_ofList_concat : (ofList share (rules ++ [(A, body)])).heads =
    if A ∈ (ofList share rules).heads then (ofList share rules).heads
    else (ofList share rules).heads ++ [A] := by
  rw [ofList, List.foldl_append]
  exact heads_addBody _

lemma mem_heads_ofList : A ∈ (ofList share rules).heads ↔ Defines rules A := by
  have hgather := gathered_ofList share rules
  constructor
  · intro h
    obtain ⟨p, hp, rfl⟩ := List.mem_map.mp h
    obtain ⟨heq, hne⟩ := hgather.mem_iff.mp hp
    obtain ⟨body, hbody⟩ := List.exists_mem_of_ne_nil _ hne
    exact ⟨body, mem_alternatives.mp (heq ▸ hbody)⟩
  · rintro ⟨body, hbody⟩
    have hne := List.ne_nil_of_mem (mem_alternatives.mpr hbody)
    have hp : ⟨A, alternatives rules A⟩ ∈ (ofList share rules).productions :=
      hgather.mem_iff.mpr ⟨rfl, hne⟩
    exact List.mem_map_of_mem (f := Production.head) hp

/-- The nonterminals come in the order in which they were declared. -/
theorem heads_sorted (share : Bool) (rules : List (String × List Symbol)) :
    (ofList share rules).heads.Pairwise fun A B => declaration rules A < declaration rules B := by
  induction rules using List.reverseRecOn with
  | nil => exact .nil
  | append_singleton rules e ih =>
    obtain ⟨B, body⟩ := e
    have hold : (ofList share rules).heads.Pairwise fun A A' =>
        declaration (rules ++ [(B, body)]) A < declaration (rules ++ [(B, body)]) A' := by
      refine ih.imp_of_mem fun {A A'} hA hA' hlt => ?_
      rw [mem_heads_ofList] at hA hA'
      rwa [declaration_append hA, declaration_append hA']
    rw [heads_ofList_concat]
    split
    next => exact hold
    next hB =>
      rw [mem_heads_ofList] at hB
      refine List.pairwise_append.mpr ⟨hold, List.pairwise_singleton _ _, ?_⟩
      intro A hA A' hA'
      obtain rfl := List.mem_singleton.mp hA'
      have hdefined := mem_heads_ofList.mp hA
      rw [declaration_append hdefined, declaration_concat hB]
      exact declaration_lt_length hdefined

/-! ### Where an error comes from -/

end Rules

lemma Symbol.undefined?_eq_some {names : List String} {head : String} {X : Symbol}
    {e : UndefinedNonterminal} (h : X.undefined? names head = some e) :
    ∃ name, X = .nonterminal name ∧ name ∉ names ∧ e = ⟨name, head⟩ := by
  cases X with
  | terminal t => cases h
  | nonterminal name =>
    rw [undefined?] at h
    split at h
    · cases h
    next hno => exact ⟨name, rfl, hno, (Option.some.inj h).symm⟩

/-- Where no error is found in a body, the nonterminals that it uses are known. -/
lemma Symbol.mem_of_findSome?_eq_none {names : List String} {head name : String}
    {body : List Symbol} (h : body.findSome? (Symbol.undefined? names head) = none)
    (hmem : .nonterminal name ∈ body) : name ∈ names := by
  have hnone := List.findSome?_eq_none_iff.mp h _ hmem
  by_contra hno
  rw [undefined?, if_neg hno] at hnone
  cases hnone

lemma Production.mem_of_undefined?_eq_none {names : List String} {p : Production} {name : String}
    {body : List Symbol} (h : p.undefined? names = none) (hbody : body ∈ p.bodies)
    (hmem : .nonterminal name ∈ body) : name ∈ names :=
  Symbol.mem_of_findSome?_eq_none (List.findSome?_eq_none_iff.mp h _ hbody) hmem

namespace Rules

variable {share : Bool} {rules : List (String × List Symbol)} {A : String} {body : List Symbol}

lemma bodies_of_mem {p : Production} (h : p ∈ (ofList share rules).productions) :
    p.bodies = alternatives rules p.head :=
  ((gathered_ofList share rules).mem_iff.mp h).1

/-- An alternative of a nonterminal is one of its rules; the alternatives before it are those of the
rules before it. -/
lemma split_of_alternatives {bs bs' : List (List Symbol)}
    (h : alternatives rules A = bs ++ body :: bs') :
    ∃ front back, rules = front ++ (A, body) :: back ∧ alternatives front A = bs := by
  obtain ⟨es, es', hes, rfl, htail⟩ := List.map_eq_append_iff.mp h
  obtain ⟨front, rest, rfl, rfl, hrest⟩ := List.filter_eq_append_iff.mp hes
  obtain ⟨e, es, rfl, rfl, -⟩ := List.map_eq_cons_iff.mp htail
  obtain ⟨skipped, back, rfl, hskipped, he, -⟩ := List.filter_eq_cons_iff.mp hrest
  obtain ⟨A', body⟩ := e
  obtain rfl : A' = A := by simpa using he
  refine ⟨front ++ skipped, back, by simp, ?_⟩
  rw [alternatives, List.filter_append, List.filter_eq_nil_iff.mpr hskipped, List.append_nil]

/-- What is reported is the first use of an undefined nonterminal. -/
lemma firstUndefined_of_undefined? {e : UndefinedNonterminal}
    (h : (ofList share rules).undefined? = some e) :
    ∃ u, FirstUndefined rules u ∧ u.error = e := by
  obtain ⟨ps, p, ps', hps, hp, hheads⟩ := List.findSome?_eq_some_iff.mp h
  obtain ⟨bs, body, bs', hbs, hbody, hrules⟩ := List.findSome?_eq_some_iff.mp hp
  obtain ⟨Xs, X, Xs', rfl, hX, hsymbols⟩ := List.findSome?_eq_some_iff.mp hbody
  obtain ⟨name, rfl, hname, rfl⟩ := Symbol.undefined?_eq_some hX
  have hbodies := bodies_of_mem (hps ▸ List.mem_append_right ps List.mem_cons_self)
  obtain ⟨front, back, rfl, rfl⟩ := split_of_alternatives (hbodies.symm.trans hbs)
  refine ⟨⟨p.head, front.length, Xs.length, name⟩,
    ⟨⟨Xs ++ .nonterminal name :: Xs', by simp, by simp⟩, mem_heads_ofList.not.mp hname, ?_⟩, rfl⟩
  rintro ⟨A, i, k, name'⟩ ⟨body', hrule, hsymbol⟩ hundefined hne
  have hno : name' ∉ (ofList share _).heads := mem_heads_ofList.not.mpr hundefined
  have hused : .nonterminal name' ∈ body' := List.mem_of_getElem? hsymbol
  have hA : A ∈ (ofList share _).heads :=
    mem_heads_ofList.mpr ⟨body', List.mem_of_getElem? hrule⟩
  have hsorted := heads_sorted share (front ++ (p.head, Xs ++ .nonterminal name :: Xs') :: back)
  rw [heads, hps, List.map_append, List.map_cons] at hA hsorted
  rcases List.mem_append.mp hA with hA | hA
  · -- an earlier head: its alternatives were looked at, and nothing was found
    obtain ⟨q, hq, rfl⟩ := List.mem_map.mp hA
    have hqbodies := bodies_of_mem (hps ▸ List.mem_append_left _ hq)
    refine absurd (Production.mem_of_undefined?_eq_none (hheads q hq) ?_ hused) hno
    rw [hqbodies]
    exact mem_alternatives.mpr (List.mem_of_getElem? hrule)
  rcases List.mem_cons.mp hA with rfl | hA
  · rcases Nat.lt_trichotomy i front.length with hi | rfl | hi
    · -- an earlier rule for this head was looked at too
      rw [List.getElem?_append_left hi] at hrule
      have hearlier := mem_alternatives.mpr (List.mem_of_getElem? hrule)
      exact absurd (Symbol.mem_of_findSome?_eq_none (hrules _ hearlier) hused) hno
    · obtain rfl : Xs ++ .nonterminal name :: Xs' = body' := by simpa using hrule
      rcases Nat.lt_trichotomy k Xs.length with hk | rfl | hk
      · rw [List.getElem?_append_left hk] at hsymbol
        have hnone := List.findSome?_eq_none_iff.mpr hsymbols
        exact absurd (Symbol.mem_of_findSome?_eq_none hnone (List.mem_of_getElem? hsymbol)) hno
      · obtain rfl : name = name' := by simpa using hsymbol
        exact absurd rfl hne
      · exact .symbol rfl rfl hk
    · exact .rule rfl hi
  · -- a later head
    obtain ⟨-, hsorted, -⟩ := List.pairwise_append.mp hsorted
    exact .head (List.rel_of_pairwise_cons hsorted hA)

/-- Nothing is reported just if every nonterminal that is used is defined. -/
lemma undefined?_eq_none_iff : (ofList share rules).undefined? = none ↔
    ∀ A body name, (A, body) ∈ rules → .nonterminal name ∈ body → Defines rules name := by
  constructor
  · intro hnone A body name hrule hused
    have hA : A ∈ (ofList share rules).heads := mem_heads_ofList.mpr ⟨body, hrule⟩
    obtain ⟨p, hp, rfl⟩ := List.mem_map.mp hA
    have hbody : body ∈ p.bodies := bodies_of_mem hp ▸ mem_alternatives.mpr hrule
    have hpnone := List.findSome?_eq_none_iff.mp hnone p hp
    exact mem_heads_ofList.mp (Production.mem_of_undefined?_eq_none hpnone hbody hused)
  · intro hall
    cases hundefined : (ofList share rules).undefined? with
    | none => rfl
    | some e =>
      obtain ⟨u, ⟨⟨body, hrule, hsymbol⟩, hno, -⟩, -⟩ := firstUndefined_of_undefined? hundefined
      exact absurd (hall u.head body u.name (List.mem_of_getElem? hrule)
        (List.mem_of_getElem? hsymbol)) hno

/-- A graph can be built just if every nonterminal that occurs in a rule is the head of one. What is
reported otherwise is the first use of an undefined nonterminal. -/
theorem build_undefined_iff (share : Bool) (rules : List (String × List Symbol)) :
    ((∃ g, (ofList share rules).build = .ok g) ↔
      ∀ A body name, (A, body) ∈ rules → .nonterminal name ∈ body →
        ∃ body', (name, body') ∈ rules) ∧
    ∀ e, (ofList share rules).build = .error e ↔ ∃ u, FirstUndefined rules u ∧ u.error = e := by
  have hnodup := (gathered_ofList share rules).nodup
  refine ⟨(exists_build_iff hnodup).trans undefined?_eq_none_iff, fun e => ?_⟩
  rcases build_outcome hnodup with ⟨g, hnone, hg⟩ | ⟨e', hsome, he'⟩
  · refine iff_of_false (by simp [hg]) ?_
    rintro ⟨u, ⟨⟨body, hrule, hsymbol⟩, hno, -⟩, -⟩
    exact hno (undefined?_eq_none_iff.mp hnone u.head body u.name (List.mem_of_getElem? hrule)
      (List.mem_of_getElem? hsymbol))
  · obtain ⟨u, hu, rfl⟩ := firstUndefined_of_undefined? hsome
    rw [he', Except.error.injEq]
    constructor
    · rintro rfl
      exact ⟨u, hu, rfl⟩
    · rintro ⟨u', hu', rfl⟩
      rw [hu.unique hu']

/-- A later rule for the first head comes before all rules for the second. -/
example : (ofList true [("S", []), ("A", [.nonterminal "B"]), ("S", [.nonterminal "C"])]).build =
    .error ⟨"C", "S"⟩ := by
  rfl

end Rules

end GeneralParser
