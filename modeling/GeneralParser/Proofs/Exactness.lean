import GeneralParser.Proofs.Recognition

/-!
# Forests of all derivations

At the end of a run the forest holds every derivation, and nothing else. A node for a nonterminal
has one packed node for each way in which one of its alternatives derives the same stretch of the
text, cut before the last symbol, and an intermediate node one for each way to cut the beginning of
a rule.
-/

namespace GeneralParser

section

variable [PatternEngine]

open Slots (role? head? Leads Path Starts Spelled)

/-! ### Ways to derive -/

namespace Graph

/-- The symbols `body`, in the slots `xs`, are what stands before `slot` in its rule. -/
structure Precedes (g : Graph) (slot : SlotId) (xs : List SlotId) (body : List Symbol) : Prop where
  path : ∃ a f, Starts g.slots a f ∧ Path g.slots f xs slot
  spelled : Spelled g.slots xs body

/-- The symbols before `slot` are `front` and `last`, and derive the stretch from `i` to `j`, with
the last one from `k` on. The parts are the node for the front, if it is not empty, and that of the
last symbol. -/
inductive Cut (g : Graph) (rules : List (String × List Symbol)) (t : Text) (slot : SlotId)
    (front : List Symbol) (last : Symbol) (i k j : Nat) : Option Node → Node → Prop
  | mk {b y : SlotId} {ys : List SlotId} : g.Precedes b ys front → Leads g.slots b y slot →
    role? g.slots y = some last.role → (SpanGrammar.ofRules rules t).Derives front i k →
    (SpanGrammar.ofRules rules t).Derives [last] k j →
    Cut g rules t slot front last i k j (g.prefixNode? b ys i k) (g.symbolNode y k j)

/-- The packed nodes of the nonterminal `A`, in slot `a`, over the stretch from `i` to `j`: one for
each alternative, which ends in `e`, and each pivot `k`. -/
inductive NonterminalSplit (g : Graph) (rules : List (String × List Symbol)) (t : Text)
    (A : String) (a : SlotId) (i j : Nat) : SlotId → Nat → Option Node → Node → Prop
  | symbols {e : SlotId} {l k : Nat} {front : List Symbol} {last : Symbol} {o : Option Node}
    {n : Node} : (Rules.alternatives rules A)[l]? = some (front ++ [last]) →
    role? g.slots e = some (.done a l) → g.Cut rules t e front last i k j o n →
    NonterminalSplit g rules t A a i j e k o n
  | empty {e : SlotId} {l : Nat} : (Rules.alternatives rules A)[l]? = some [] →
    role? g.slots e = some (.done a l) → i = j →
    NonterminalSplit g rules t A a i j e i none (.epsilon i)

/-- The packed nodes of the intermediate node for `slot` over the stretch from `i` to `j`: one for
each pivot `k`. -/
inductive IntermediateSplit (g : Graph) (rules : List (String × List Symbol)) (t : Text)
    (slot : SlotId) (i j : Nat) : SlotId → Nat → Option Node → Node → Prop
  | symbols {k : Nat} {front : List Symbol} {last : Symbol} {o : Option Node} {n : Node} :
    g.Cut rules t slot front last i k j o n →
    IntermediateSplit g rules t slot i j slot k o n

end Graph

/-- Below node `v` there is just one packed node for each slot and pivot in `P`, and its children
are the parts that `P` gives, in order. -/
structure Forest.Splits (f : Forest) (v : NodeId) (P : SlotId → Nat → Option Node → Node → Prop) :
    Prop where
  nodup : (f.children v).Nodup
  packed {q : NodeId} : q ∈ f.children v → ∃ slot k, f.node? q = some (.packed slot k)
  unique {q q' : NodeId} : q ∈ f.children v → q' ∈ f.children v → f.node? q = f.node? q' → q = q'
  exact {slot : SlotId} {k : Nat} :
    (∃ q ∈ f.children v, f.node? q = some (.packed slot k)) ↔ ∃ o n, P slot k o n
  parts {q : NodeId} {slot : SlotId} {k : Nat} {o : Option Node} {n : Node} : q ∈ f.children v →
    f.node? q = some (.packed slot k) → P slot k o n →
    ∃ l r, f.children q = l.toList ++ [r] ∧ f.Denotes l o ∧ f.node? r = some n

/-- The forest of a state holds every derivation and no other. -/
structure State.Exact (g : Graph) (rules : List (String × List Symbol)) (t : Text) (s : State) :
    Prop where
  nonterminal_iff {A : String} {a : SlotId} {i j : Nat} :
    role? g.slots a = some (.nonterminal A) →
    ((∃ v, s.forest.node? v = some (.nonterminal a i j)) ↔
      (∃ c, s.calls.site? c = some ⟨a, i⟩) ∧
        (SpanGrammar.ofRules rules t).Derives [.nonterminal A] i j)
  nonterminal {A : String} {a : SlotId} {i j : Nat} {v : NodeId} :
    role? g.slots a = some (.nonterminal A) →
    s.forest.node? v = some (.nonterminal a i j) →
    s.forest.Splits v (g.NonterminalSplit rules t A a i j)
  intermediate {slot : SlotId} {i j : Nat} {v : NodeId} :
    s.forest.node? v = some (.intermediate slot i j) →
    s.forest.Splits v (g.IntermediateSplit rules t slot i j)

/-! ### Ways to derive are facts -/

namespace Slots

variable {slots : Array Slot}

lemma spelled_concat_iff {xs : List SlotId} {x : SlotId} {body : List Symbol} :
    Spelled slots (xs ++ [x]) body ↔ ∃ front last, body = front ++ [last] ∧
      Spelled slots xs front ∧ role? slots x = some last.role := by
  constructor
  · intro h
    rcases List.eq_nil_or_concat' body with rfl | ⟨front, last, rfl⟩
    · simp [Spelled] at h
    · refine ⟨front, last, rfl, ?_⟩
      rw [Spelled] at h ⊢
      rw [List.map_append, List.map_append] at h
      obtain ⟨hfront, hlast⟩ := List.append_inj' h rfl
      exact ⟨hfront, by simpa using hlast⟩
  · rintro ⟨front, last, rfl, hs, hx⟩
    exact hs.concat hx

end Slots

section facts

variable {S : Setting} {rules : List (String × List Symbol)} (hg : S.graph.Spells rules)
include hg

/-- A split of what has been read is a cut of the symbols that spell it. -/
lemma Setting.Splits.cut {slot f b x : SlotId} {site : CallSite} {k j : Nat} {xs : List SlotId}
    (h : S.Splits slot site k j f xs b x) {front : List Symbol} {last : Symbol}
    (hxs : Spelled S.graph.slots xs front) (hx : role? S.graph.slots x = some last.role) :
    S.graph.Cut rules S.text slot front last site.index k j
      (S.graph.prefixNode? b xs site.index k) (S.graph.symbolNode x k j) := by
  refine .mk ⟨⟨_, f, h.reads.starts, h.reads.path⟩, hxs⟩ h.leads hx
    ((hg.derives_iff hxs).mp h.reads.derives) ?_
  exact (hg.derives_iff (by simp [Spelled, hx])).mp h.last

/-- A cut is a split of what has been read, provided that the alternative is entered. -/
lemma Graph.Cut.splits {slot : SlotId} {front : List Symbol} {last : Symbol} {k j : Nat}
    {o : Option Node} {n : Node} (site : CallSite)
    (h : S.graph.Cut rules S.text slot front last site.index k j o n)
    (hcall : S.Derivable (.call site)) (hhead : head? S.graph.slots slot = some site.slot)
    (hadm : ∀ f xs, Starts S.graph.slots site.slot f → Path S.graph.slots f xs slot →
      S.Derives xs site.index j → S.Admits f site.index) :
    ∃ f ys b y, S.Splits slot site k j f ys b y ∧
      o = S.graph.prefixNode? b ys site.index k ∧ n = S.graph.symbolNode y k j := by
  cases h with
  | @mk b y ys hprec hl hy hfront hlast =>
    obtain ⟨⟨a, f, hf, hp⟩, hys⟩ := hprec
    obtain rfl : a = site.slot := by
      have hpath := hg.wired.path_head (hp.concat hl)
      rw [hhead, hg.wired.starts_head hf] at hpath
      exact (Option.some.inj hpath).symm
    have hys' : S.Derives ys site.index k := (hg.derives_iff hys).mpr hfront
    have hy' : S.Derives [y] k j := (hg.derives_iff (by simp [Spelled, hy])).mpr hlast
    have hreads : S.Reads b site k f ys :=
      ⟨hcall, hf, hadm f _ hf (hp.concat hl) (hys'.append hy'), hp, hys'⟩
    exact ⟨f, ys, b, y, ⟨hreads, hl, hy'⟩, rfl, rfl⟩

variable (hS : S.WellBuilt)
include hS

/-- The packed nodes of a nonterminal that is called are those of its alternatives. -/
lemma nonterminalSplit_iff {A : String} {a : SlotId} {i j : Nat}
    (ha : role? S.graph.slots a = some (.nonterminal A)) (hcall : S.Derivable (.call ⟨a, i⟩))
    {e : SlotId} {k : Nat} {o : Option Node} {n : Node} :
    S.graph.NonterminalSplit rules S.text A a i j e k o n ↔
      S.Derivable (.packed (.nonterminal a i j) e k o n) := by
  constructor
  · intro h
    cases h with
    | symbols hbody he hcut =>
      obtain ⟨f, ys, b, y, hs, rfl, rfl⟩ := Graph.Cut.splits hg ⟨a, i⟩ hcut hcall
        (Slots.head?_of_role_done he) fun f xs hf hp hd _ =>
          Graph.admits_of_derives hS.graph hS.summarised hS.readable hd hp he
      exact .packed (hs.arrival hS) (Setting.joined?_eq_nonterminal_iff.mpr ⟨⟨_, he⟩, rfl, rfl⟩)
    | empty hbody he hij =>
      obtain ⟨A', body, f, xs, ha', hbody', hf, hp, hxs⟩ := hg.ended he
      obtain rfl : A = A' := by
        rw [ha] at ha'
        simpa using ha'
      obtain rfl : [] = body := Option.mem_unique hbody hbody'
      obtain rfl : xs = [] := by simpa [Spelled] using hxs
      obtain rfl := Slots.path_nil_iff.mp hp
      subst hij
      have hadm : S.Admits f i := fun _ =>
        Graph.admits_of_derives hS.graph hS.summarised hS.readable (.nil i) hp he
      have hreads : S.Reads f ⟨a, i⟩ i f [] := ⟨hcall, hf, hadm, hp, .nil i⟩
      exact .emptyPacked (hreads.item hS) he
  · intro h
    rcases (Setting.packed_iff hS).mp h with ⟨site, j', f, xs, b, x, hs, rfl, rfl, hm⟩ |
      ⟨site, a', l, hr, he, hm, rfl, rfl⟩
    · obtain ⟨⟨l, he⟩, rfl, rfl⟩ := Setting.joined?_eq_nonterminal_iff.mp hm
      obtain ⟨rfl, -⟩ := hs.concat.derives_head hS.toWired he
      obtain ⟨body, hbody, hxs⟩ := hg.path_iff ha he hs.concat.starts hs.concat.path
      obtain ⟨front, last, rfl, hfront, hlast⟩ := Slots.spelled_concat_iff.mp hxs
      exact .symbols hbody he (hs.cut hg hfront hlast)
    · obtain ⟨rfl, rfl, rfl⟩ : a = a' ∧ i = k ∧ j = k := by simpa using hm
      obtain ⟨rfl, -⟩ := hr.derives_head hS.toWired he
      obtain ⟨body, hbody, hxs⟩ := hg.path_iff ha he hr.starts hr.path
      obtain rfl : body = [] := List.map_eq_nil_iff.mp hxs.symm
      exact .empty hbody he rfl

/-- The packed nodes of an intermediate node are those of what stands before its slot. -/
lemma intermediateSplit_iff {slot : SlotId} {i j : Nat}
    (hnode : S.Derivable (.node (.intermediate slot i j))) {slot' : SlotId} {k : Nat}
    {o : Option Node} {n : Node} :
    S.graph.IntermediateSplit rules S.text slot i j slot' k o n ↔
      S.Derivable (.packed (.intermediate slot i j) slot' k o n) := by
  obtain ⟨hbody, site, f, xs, rfl, hr, hlen⟩ := Setting.node_intermediate hS hnode
  constructor
  · intro h
    cases h with
    | symbols hcut =>
      obtain ⟨f', ys, b, y, hs, rfl, rfl⟩ := hcut.splits hg site hr.call (hr.head hS.toWired)
        fun f' xs' hf' hp' _ => (hS.wired.path_unique hr.starts hf' hr.path hp').1 ▸ hr.admits
      obtain ⟨-, -, hxs⟩ := hr.unique hS.toWired hs.concat
      refine .packed (hs.arrival hS)
        (Setting.joined?_eq_intermediate_iff.mpr ⟨hbody, ?_, rfl, rfl, rfl⟩)
      intro hnone
      obtain rfl := Graph.prefixNode?_eq_none_iff.mp hnone
      simp [hxs] at hlen
  · intro h
    rcases (Setting.packed_iff hS).mp h with ⟨site', j', f', ys, b, y, hs, rfl, rfl, hm⟩ |
      ⟨site', a', l, -, -, hm, -⟩
    · obtain ⟨-, -, rfl, hi, rfl⟩ := Setting.joined?_eq_intermediate_iff.mp hm
      obtain ⟨body, hxs⟩ := hS.wired.exists_spelled hs.concat.path
      obtain ⟨front, last, rfl, hfront, hlast⟩ := Slots.spelled_concat_iff.mp hxs
      rw [← hi]
      exact .symbols (hs.cut hg hfront hlast)
    · cases hm

end facts

/-! ### The forest -/

namespace State.Final

variable {p : Problem} {s : State} (hS : p.setting.WellBuilt) (h : s.Final p)
include hS h

/-- The packed nodes below a node are the facts about it, each once. -/
lemma splits {v : NodeId} {m : Node} (hv : s.forest.node? v = some m) (hm : m.isPacked = false)
    {P : SlotId → Nat → Option Node → Node → Prop}
    (hP : ∀ {slot k o n}, P slot k o n ↔ p.setting.Derivable (.packed m slot k o n)) :
    s.forest.Splits v P := by
  have hs := h.sound hS
  have hwf := hs.forest.wellFormed
  have hchildren := hwf.children_eq_packedUnder hv hm
  have hfact {q : NodeId} {slot : SlotId} {k : Nat} (hq : q ∈ s.forest.packedUnder v)
      (hqn : s.forest.node? q = some (.packed slot k)) : ∃ o n l r,
      s.forest.parts q = l.toList ++ [r] ∧ s.forest.Denotes l o ∧ s.forest.node? r = some n ∧
        P slot k o n := by
    obtain ⟨m', slot', k', o, n, l, r, hv', hqn', hparts, hl, hr, hd⟩ := hs.forest.packed hq
    obtain rfl : m = m' := Option.mem_unique hv hv'
    obtain ⟨rfl, rfl⟩ : slot = slot' ∧ k = k' := by simpa using hqn.symm.trans hqn'
    exact ⟨o, n, l, r, hparts, hl, hr, hP.mpr hd⟩
  refine ⟨?_, ?_, ?_, ?_, ?_⟩
  · rw [hchildren]
    exact hwf.nodup
  · intro q hq
    rw [hchildren] at hq
    exact (hwf.packed_kind hq).1
  · intro q q' hq hq' heq
    rw [hchildren] at hq hq'
    exact hwf.packed_unique hq hq' heq
  · intro slot k
    rw [hchildren]
    constructor
    · rintro ⟨q, hq, hqn⟩
      obtain ⟨o, n, -, -, -, -, -, hd⟩ := hfact hq hqn
      exact ⟨o, n, hd⟩
    · rintro ⟨o, n, hd⟩
      obtain ⟨v', q, -, -, hv', hq, hqn, -⟩ :=
        (h.knows_iff hS (F := .packed m slot k o n) (by simp)).mpr (hP.mp hd)
      obtain rfl := hwf.unique hv hv' hm
      exact ⟨q, hq, hqn⟩
  · intro q slot k o n hq hqn hd
    rw [hchildren] at hq
    obtain ⟨o', n', l, r, hparts, hl, hr, hd'⟩ := hfact hq hqn
    obtain ⟨rfl, rfl⟩ := hS.functional.packed (hP.mp hd) (hP.mp hd')
    exact ⟨l, r, (hwf.children_eq_parts hqn).trans hparts, hl, hr⟩

theorem exact {rules : List (String × List Symbol)} (hg : p.graph.Spells rules) :
    s.Exact p.graph rules p.text := by
  refine ⟨?_, ?_, ?_⟩
  · intro A a i j ha
    rw [h.nonterminal_iff hS]
    apply and_congr_right
    intro _
    exact hg.derives_nonterminal_iff ha
  · intro A a i j v ha hv
    obtain ⟨hcall, -⟩ := (h.nonterminal_iff hS).mp ⟨v, hv⟩
    exact h.splits hS hv rfl
      (nonterminalSplit_iff (S := p.setting) hg hS ha ((h.call_iff hS).mp hcall))
  · intro slot i j v hv
    have hnode := (h.node_iff hS rfl).mp ⟨v, hv⟩
    exact h.splits hS hv rfl (intermediateSplit_iff (S := p.setting) hg hS hnode)

end State.Final

/-- Every alternative has one end, before which its symbols stand. -/
lemma Graph.Spells.exists_end {g : Graph} {rules : List (String × List Symbol)}
    (hg : g.Spells rules) {A : String} {a : SlotId} {l : Nat} {body : List Symbol}
    (ha : role? g.slots a = some (.nonterminal A))
    (hbody : (Rules.alternatives rules A)[l]? = some body) :
    ∃ e xs, (∀ e', role? g.slots e' = some (.done a l) ↔ e' = e) ∧ g.Precedes e xs body := by
  obtain ⟨e, f, xs, he, hf, hp, hxs⟩ := hg.exists_path ha hbody
  refine ⟨e, xs, fun e' => ⟨fun he' => hg.ended_unique he' he, ?_⟩, ⟨⟨a, f, hf, hp⟩, hxs⟩⟩
  rintro rfl
  exact he

/-- At the end of a run that does not hit its limit, the forest holds every derivation and no
other. -/
theorem run_exact {share : Bool} {rules : List (String × List Symbol)} {g : Graph}
    (hbuild : (Rules.ofList share rules).build = .ok g) {start : String} {id : SlotId}
    (hstart : g.nonterminal? start = some id) (text : String) (config : Config) :
    (∀ {A a l body}, role? g.slots a = some (.nonterminal A) →
      (Rules.alternatives rules A)[l]? = some body →
      ∃ e xs, (∀ e', role? g.slots e' = some (.done a l) ↔ e' = e) ∧ g.Precedes e xs body) ∧
    ((∃ s, Problem.run ⟨g, .ofString text, id, config⟩ = (s, .ok ()) ∧
        s.Exact g rules (.ofString text)) ∨
      ∃ s limit, Problem.run ⟨g, .ofString text, id, config⟩ = (s, .error (.overLimit limit)) ∧
        config.maxDescriptors = some limit ∧ limit < s.agenda.size) := by
  have hg := Graph.spells_of_build hbuild
  refine ⟨hg.exists_end, ?_⟩
  have hwell : (Problem.setting ⟨g, .ofString text, id, config⟩).WellBuilt :=
    hg.wellBuilt (Text.readable_ofString text) (hg.lookup_iff.mp hstart) config.lookahead
  rcases Problem.run_final hwell with
    ⟨s, h⟩ | ⟨s, limit, hlimit, hrun, -, hlt⟩
  · exact Or.inl ⟨s, h.run, h.exact hwell hg⟩
  · exact Or.inr ⟨s, limit, hrun, hlimit, hlt⟩

end

/-- The forest of an ambiguous, left-recursive and cyclic grammar is exact, too. -/
theorem run_letters_exact :
    (Rules.ofList true Rules.letters).build = .ok Graph.letters ∧
    Graph.letters.nonterminal? "S" = some 0 ∧
    ∃ s, Problem.run ⟨Graph.letters, .ofString "aa", 0, {}⟩ = (s, .ok ()) ∧
      s.Exact Graph.letters Rules.letters (.ofString "aa") := by
  refine ⟨Graph.build_letters, Graph.nonterminal?_letters, ?_⟩
  rcases (run_exact Graph.build_letters Graph.nonterminal?_letters "aa" {}).2 with
    h | ⟨s, limit, -, hlimit, -⟩
  · exact h
  · cases hlimit

end GeneralParser
