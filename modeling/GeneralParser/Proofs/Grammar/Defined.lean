import GeneralParser.Proofs.Grammar.Rules

/-!
# Undefined nonterminals

A grammar has a graph unless some nonterminal is used without being defined. Then the first such use
is reported, in the order of the productions, of their bodies and of the symbols there. Whether
prefixes are shared makes no difference to that.
-/

namespace GeneralParser

variable [PatternEngine]

/-- What is wrong with a symbol in a rule for `head`, if only `names` are defined. -/
def Symbol.undefined? (names : List String) (head : String) : Symbol → Option UndefinedNonterminal
  | .terminal _ => none
  | .nonterminal name => if name ∈ names then none else some ⟨name, head⟩

/-- The first use of an undefined nonterminal in a production. -/
def Production.undefined? (names : List String) (p : Production) : Option UndefinedNonterminal :=
  p.bodies.findSome? fun body => body.findSome? (Symbol.undefined? names p.head)

/-- The first use of an undefined nonterminal. -/
def Rules.undefined? (r : Rules) : Option UndefinedNonterminal :=
  r.productions.findSome? (Production.undefined? r.heads)

namespace Layout

/-! ### Steps that may fail -/

section outcome

variable {α β : Type} {names : List String} {o o' : Option UndefinedNonterminal}

/-- Just the names in `names` are registered. -/
def Registers (l : Layout) (names : List String) : Prop :=
  ∀ name, (∃ a, l.registry.lookup name = some a) ↔ name ∈ names

/-- A step fails with the error `o`, if there is one. Otherwise it leaves a layout, which registers
the same names as before. -/
inductive Outcome (names : List String) (layout : α → Layout) :
    Option UndefinedNonterminal → Except UndefinedNonterminal α → Prop
  | ok {a : α} : (layout a).Registers names → Outcome names layout none (.ok a)
  | error (e : UndefinedNonterminal) : Outcome names layout (some e) (.error e)

/-- Of two steps the second is only taken if the first does not fail. -/
lemma Outcome.bind {layout : α → Layout} {layout' : β → Layout}
    {x : Except UndefinedNonterminal α} {f : α → Except UndefinedNonterminal β}
    (h : Outcome names layout o x)
    (hf : ∀ a, (layout a).Registers names → Outcome names layout' o' (f a)) :
    Outcome names layout' (o.or o') (x >>= f) := by
  cases h with
  | ok ha => exact hf _ ha
  | error e => exact .error e

/-- What is done after the last step cannot fail. -/
lemma Outcome.map {layout : α → Layout} {layout' : β → Layout}
    {x : Except UndefinedNonterminal α} {f : α → β} (h : Outcome names layout o x)
    (hf : ∀ a, (layout a).Registers names → (layout' (f a)).Registers names) :
    Outcome names layout' o (do return f (← x)) := by
  cases h with
  | ok ha => exact .ok (hf _ ha)
  | error e => exact .error e

lemma Outcome.cases {layout : α → Layout} {x : Except UndefinedNonterminal α}
    (h : Outcome names layout o x) :
    (∃ a, o = none ∧ x = .ok a) ∨ ∃ e, o = some e ∧ x = .error e := by
  cases h with
  | ok => exact Or.inl ⟨_, rfl, rfl⟩
  | error e => exact Or.inr ⟨e, rfl, rfl⟩

omit [PatternEngine] in
lemma findSome?_cons_eq_or {f : β → Option α} {b : β} {bs : List β} :
    (b :: bs).findSome? f = (f b).or (bs.findSome? f) := by
  rw [List.findSome?_cons]
  cases f b <;> rfl

end outcome

variable {l : Layout} {names : List String}

lemma resolve_outcome (hl : l.Registers names) (head : String) (X : Symbol) :
    Outcome names Prod.snd (X.undefined? names head) (l.resolve head X) := by
  cases X with
  | terminal t =>
    rw [resolve]
    cases l.terminal? t with
    | some id => exact .ok hl
    | none => exact .ok hl
  | nonterminal name =>
    rw [resolve, Symbol.undefined?]
    cases hlookup : l.registry.lookup name with
    | some id =>
      rw [if_pos ((hl name).mp ⟨id, hlookup⟩)]
      exact .ok hl
    | none =>
      rw [if_neg]
      · exact .error _
      · intro hmem
        obtain ⟨a, ha⟩ := (hl name).mpr hmem
        rw [hlookup] at ha
        cases ha

lemma Registers.advance (hl : l.Registers names) (a : Alternative) (current x : SlotId) (n : Nat) :
    (l.advance a current x n).2.Registers names := by
  rw [Layout.advance]
  split <;> exact hl

lemma addSymbols_outcome (hl : l.Registers names) (a : Alternative) (current : SlotId) (n : Nat)
    (body : List Symbol) : Outcome names id (body.findSome? (Symbol.undefined? names a.head))
      (addSymbols a l current n body) := by
  fun_induction addSymbols a l current n body with
  | case1 => exact .ok hl
  | case2 l current n X =>
    rw [findSome?_cons_eq_or, List.findSome?_nil]
    exact (resolve_outcome hl a.head X).bind fun _ hx => .ok hx
  | case3 l current n X body _ ih =>
    rw [findSome?_cons_eq_or]
    exact (resolve_outcome hl a.head X).bind fun _ hx => ih _ _ (hx.advance a _ _ _)

lemma addAlternative_outcome (hl : l.Registers names) (starts : Starts) (a : Alternative)
    (body : List Symbol) :
    Outcome names Prod.snd (body.findSome? (Symbol.undefined? names a.head))
      (l.addAlternative starts a body) := by
  cases body with
  | nil => exact .ok hl
  | cons X body =>
    obtain ⟨firstSlots, root⟩ := starts
    cases root with
    | some root =>
      have hsymbols := addSymbols_outcome (l := l.markShared a root 0) hl a root 0 (X :: body)
      exact hsymbols.map fun _ => id
    | none =>
      have hsymbols := addSymbols_outcome (l := (l.push (a.bodySlot 0)).2) hl a l.slots.size 0
        (X :: body)
      exact hsymbols.map fun _ => id

lemma addAlternatives_outcome (hl : l.Registers names) (share : Bool) (head : String)
    (headId : SlotId) (starts : Starts) (n : Nat) (bodies : List (List Symbol)) :
    Outcome names Prod.snd
      (bodies.findSome? fun body => body.findSome? (Symbol.undefined? names head))
      (addAlternatives share head headId l starts n bodies) := by
  induction bodies generalizing l starts n with
  | nil => exact .ok hl
  | cons body bodies ih =>
    rw [findSome?_cons_eq_or]
    have hbody := addAlternative_outcome hl starts
      ⟨head, headId, n, body.map Symbol.label, share⟩ body
    exact hbody.bind fun _ hx => ih hx _ _

lemma addProduction_outcome (hl : l.Registers names) (share : Bool) {p : Production}
    (hp : p.head ∈ names) :
    Outcome names id (p.undefined? names) (addProduction share l p) := by
  have hhead := resolve_outcome hl p.head (.nonterminal p.head)
  rw [Symbol.undefined?, if_pos hp] at hhead
  exact hhead.bind fun _ hx =>
    (addAlternatives_outcome hx share p.head _ ⟨[], none⟩ 0 p.bodies).map fun _ => id

lemma addProductions_outcome (share : Bool) {ps : List Production} (hl : l.Registers names)
    (hps : ∀ p ∈ ps, p.head ∈ names) :
    Outcome names id (ps.findSome? (Production.undefined? names))
      (ps.foldlM (addProduction share) l) := by
  induction ps generalizing l with
  | nil => exact .ok hl
  | cons p ps ih =>
    rw [findSome?_cons_eq_or, List.foldlM_cons]
    obtain ⟨hp, hps⟩ := List.forall_mem_cons.mp hps
    exact (addProduction_outcome hl share hp).bind fun _ hx => ih hx hps

lemma Declared.registers (h : Declared names l) : l.Registers names := by
  intro name
  refine ⟨?_, h.lookup⟩
  rintro ⟨a, ha⟩
  obtain ⟨s, hs, rfl⟩ := Slots.role?_nonterminal.mp (h.lookup_iff.mp ha)
  obtain ⟨name, hmem, ⟨⟩⟩ := h.slot hs
  exact hmem

end Layout

namespace Rules

/-- Building a graph fails with the first use of an undefined nonterminal, if there is one, and
succeeds otherwise. -/
theorem build_outcome {r : Rules} (hnodup : r.heads.Nodup) :
    (∃ g, r.undefined? = none ∧ r.build = .ok g) ∨
      ∃ e, r.undefined? = some e ∧ r.build = .error e := by
  have h := Layout.addProductions_outcome r.sharePrefixes (declared_heads hnodup).registers
    fun p hp => List.mem_map_of_mem hp
  rw [build, layout]
  rcases h.cases with ⟨l, ho, hl⟩ | ⟨e, ho, hl⟩
  · exact Or.inl ⟨_, ho, by rw [hl]; rfl⟩
  · exact Or.inr ⟨e, ho, by rw [hl]; rfl⟩

lemma exists_build_iff {r : Rules} (hnodup : r.heads.Nodup) :
    (∃ g, r.build = .ok g) ↔ r.undefined? = none := by
  rcases build_outcome hnodup with ⟨g, hnone, hg⟩ | ⟨e, hsome, he⟩
  · exact ⟨fun _ => hnone, fun _ => ⟨g, hg⟩⟩
  · simp [hsome, he]

lemma productions_foldl_add (rules : List (String × List Symbol)) (r : Rules) :
    (rules.foldl (fun r e => r.add e.1 e.2) r).productions =
      rules.foldl (fun ps e => addBody e.1 e.2 ps) r.productions := by
  induction rules generalizing r with
  | nil => rfl
  | cons e rules ih => exact ih (r.add e.1 e.2)

/-- Whether a graph can be built does not depend on sharing. -/
theorem exists_build_of_build {share : Bool} {rules : List (String × List Symbol)} {g : Graph}
    (h : (ofList share rules).build = .ok g) (share' : Bool) :
    ∃ g', (ofList share' rules).build = .ok g' := by
  have hnone := (exists_build_iff (gathered_ofList share rules).nodup).mp ⟨g, h⟩
  refine (exists_build_iff (gathered_ofList share' rules).nodup).mpr ?_
  rw [← hnone, undefined?, undefined?, heads, heads, ofList, ofList]
  simp only [productions_foldl_add]

end Rules

end GeneralParser
