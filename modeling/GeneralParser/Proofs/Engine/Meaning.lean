import GeneralParser.Proofs.Engine.Fact

/-!
# What the facts mean

On a graph that was built from rules, the facts say what the grammar derives: parsing goes on at a
slot if the symbols before it derive the stretch of the text from the start of the call on. Which
symbols these are is determined by the slot, so the facts determine what has been parsed.
-/

namespace GeneralParser

variable [PatternEngine]

open Slots (role? head? Leads Path Starts)

/-! ### Nodes -/

namespace Graph

variable {g : Graph}

/-- The node of a symbol over a stretch of the text. -/
def symbolNode (g : Graph) (x : SlotId) (i j : Nat) : Node :=
  match role? g.slots x with
  | some (.terminal _) => .terminal x i j
  | _ => .nonterminal x i j

/-- The node for the symbols `xs` before `slot` over a stretch of the text. One symbol is its own
node, unless the rule is complete. -/
def prefixNode? (g : Graph) (slot : SlotId) (xs : List SlotId) (i j : Nat) : Option Node :=
  match xs, g.slots[slot]? with
  | [], _ => none
  | _ :: _, some (.done e) => some (.nonterminal e.head i j)
  | [x], _ => some (g.symbolNode x i j)
  | _ :: _ :: _, _ => some (.intermediate slot i j)

lemma symbolNode_terminal {x : SlotId} {τ : Terminal} (h : role? g.slots x = some (.terminal τ))
    (i j : Nat) : g.symbolNode x i j = .terminal x i j := by
  simp [symbolNode, h]

lemma symbolNode_nonterminal {x : SlotId} {name : String}
    (h : role? g.slots x = some (.nonterminal name)) (i j : Nat) :
    g.symbolNode x i j = .nonterminal x i j := by
  simp [symbolNode, h]

@[simp] lemma prefixNode?_nil {slot : SlotId} {i j : Nat} : g.prefixNode? slot [] i j = none := rfl

lemma prefixNode?_done {e a : SlotId} {k i j : Nat} {xs : List SlotId} (hxs : xs ≠ [])
    (he : role? g.slots e = some (.done a k)) :
    g.prefixNode? e xs i j = some (.nonterminal a i j) := by
  obtain ⟨s, hs, rfl, -⟩ := Slots.role?_done.mp he
  cases xs with
  | nil => exact absurd rfl hxs
  | cons x xs => cases xs <;> simp [prefixNode?, hs]

lemma prefixNode?_eq_none_iff {slot : SlotId} {xs : List SlotId} {i j : Nat} :
    g.prefixNode? slot xs i j = none ↔ xs = [] := by
  simp only [prefixNode?]
  split <;> simp

lemma prefixNode?_concat {d x : SlotId} {xs : List SlotId} {i j : Nat} :
    g.prefixNode? d (xs ++ [x]) i j = match g.slots[d]? with
      | some (.done e) => some (.nonterminal e.head i j)
      | _ => if xs = [] then some (g.symbolNode x i j) else some (.intermediate d i j) := by
  simp only [prefixNode?]
  cases hd : g.slots[d]? with
  | none => cases xs with
    | nil => rfl
    | cons y xs => cases xs <;> rfl
  | some s => cases s <;> cases xs with
    | nil => rfl
    | cons y xs => cases xs <;> rfl

end Graph

namespace Setting

variable {S : Setting}

/-- The graph is wired as if built from rules: slots are entered in one way only. -/
structure Wired (S : Setting) : Prop extends S.Valid where
  wired : Slots.Wired S.graph.slots

/-- The graph is as if built from rules, being wired like that with the right summaries, and the
text can be read. -/
structure WellBuilt (S : Setting) : Prop extends S.Wired where
  summarised : S.graph.Summarised
  readable : S.text.Readable

/-- The symbols derive the stretch between two offsets. -/
abbrev Derives (S : Setting) : List SlotId → Nat → Nat → Prop := (S.graph.spans S.text).Derives

/-- In a call, the symbols `xs` of the alternative that starts in `f` have been read, up to `slot`
and the offset `i`. -/
structure Reads (S : Setting) (slot : SlotId) (site : CallSite) (i : Nat) (f : SlotId)
    (xs : List SlotId) : Prop where
  call : S.Derivable (.call site)
  starts : Starts S.graph.slots site.slot f
  admits : S.Admits f site.index
  path : Path S.graph.slots f xs slot
  derives : S.Derives xs site.index i

/-- Arriving after one more symbol makes the node for the symbols up to there. -/
lemma joined?_prefixNode? {b d x : SlotId} {site : CallSite} {xs : List SlotId} {k j : Nat}
    (hd : ∃ h, head? S.graph.slots d = some h) (hk : xs = [] → k = site.index) :
    some ((S.joined? d site j (S.graph.prefixNode? b xs site.index k)).getD
      (S.graph.symbolNode x k j)) = S.graph.prefixNode? d (xs ++ [x]) site.index j := by
  obtain ⟨h, hh⟩ := hd
  rw [Graph.prefixNode?_concat]
  simp only [joined?]
  rcases Slots.head?_eq_some.mp hh with ⟨s, hs, -⟩ | ⟨s, hs, -⟩
  · by_cases hxs : xs = []
    · obtain rfl := hk hxs
      simp [hs, hxs]
    · cases ho : S.graph.prefixNode? b xs site.index k with
      | none => exact absurd (Graph.prefixNode?_eq_none_iff.mp ho) hxs
      | some o => simp [hs, hxs]
  · simp [hs]

lemma joined?_eq_nonterminal_iff {d a : SlotId} {site : CallSite} {i j k : Nat}
    {o : Option Node} : S.joined? d site j o = some (.nonterminal a i k) ↔
      (∃ l, role? S.graph.slots d = some (.done a l)) ∧ site.index = i ∧ j = k := by
  simp only [joined?]
  constructor
  · intro h
    split at h
    next e he =>
      obtain ⟨rfl, hi, hj⟩ : e.head = a ∧ site.index = i ∧ j = k := by simpa using h
      exact ⟨⟨_, Slots.role?_done.mpr ⟨e, he, rfl, rfl⟩⟩, hi, hj⟩
    next => simp at h
    next => cases h
  · rintro ⟨⟨l, hl⟩, rfl, rfl⟩
    obtain ⟨e, he, rfl, -⟩ := Slots.role?_done.mp hl
    simp [he]

lemma joined?_eq_intermediate_iff {d slot : SlotId} {site : CallSite} {i j k : Nat}
    {o : Option Node} : S.joined? d site j o = some (.intermediate slot i k) ↔
      (∃ s, S.graph.slots[d]? = some (.body s)) ∧ o ≠ none ∧ d = slot ∧ site.index = i ∧
        j = k := by
  simp only [joined?]
  constructor
  · intro h
    split at h
    next => simp at h
    next hb => exact ⟨⟨_, hb⟩, by simp, by simpa using h⟩
    next => cases h
  · rintro ⟨⟨s, hs⟩, ho, rfl, rfl, rfl⟩
    obtain ⟨n, rfl⟩ := Option.ne_none_iff_exists'.mp ho
    simp [hs]

/-! ### Readings -/

namespace Reads

variable {slot b x d f : SlotId} {site : CallSite} {i k j : Nat} {xs : List SlotId}

lemma head (hS : S.Wired) (h : S.Reads slot site i f xs) :
    head? S.graph.slots slot = some site.slot := by
  rw [hS.wired.path_head h.path, hS.wired.starts_head h.starts]

lemma concat (h : S.Reads b site k f xs) (hl : Leads S.graph.slots b x d)
    (hx : S.Derives [x] k j) : S.Reads d site j f (xs ++ [x]) :=
  ⟨h.call, h.starts, h.admits, h.path.concat hl, h.derives.append hx⟩

/-- The slot tells which symbols have been read. -/
lemma unique (hS : S.Wired) {site' : CallSite} {i' : Nat} {f' : SlotId} {xs' : List SlotId}
    (h : S.Reads slot site i f xs) (h' : S.Reads slot site' i' f' xs') :
    site.slot = site'.slot ∧ f = f' ∧ xs = xs' := by
  refine ⟨?_, hS.wired.path_unique h.starts h'.starts h.path h'.path⟩
  have hhead := h.head hS
  rw [h'.head hS] at hhead
  exact (Option.some.inj hhead).symm

lemma eq_index (h : S.Reads slot site i f []) : i = site.index :=
  (SpanGrammar.derives_nil_iff.mp h.derives).symm

/-- At the end of a rule, the nonterminal derives what has been read. -/
lemma derives_head (hS : S.Wired) {e a : SlotId} {n : Nat} (h : S.Reads e site i f xs)
    (he : role? S.graph.slots e = some (.done a n)) :
    a = site.slot ∧ S.Derives [site.slot] site.index i := by
  have hhead := (Slots.head?_of_role_done he).symm.trans (h.head hS)
  exact ⟨Option.some.inj hhead,
    SpanGrammar.derives_singleton_iff.mpr (Or.inr ⟨xs, ⟨f, e, a, n, h.starts, h.path, he⟩,
      h.derives⟩)⟩

end Reads

/-! ### Facts are right -/

/-- Parsing goes on where the alternatives of a nonterminal have been read. -/
def ReadsItem (S : Setting) (slot : SlotId) (site : CallSite) (i : Nat) (o : Option Node) : Prop :=
  ∃ f xs, S.Reads slot site i f xs ∧ o = S.graph.prefixNode? slot xs site.index i

/-- What a fact means. The first descriptor is for a nonterminal as a whole and means nothing. -/
def Means (S : Setting) : Fact → Prop
  | .item slot site i o => slot = S.start ∨ S.ReadsItem slot site i o
  | .edge callee r caller o =>
    (∃ name, role? S.graph.slots callee.slot = some (.nonterminal name)) ∧
    ∃ b, Leads S.graph.slots b callee.slot r ∧ S.ReadsItem b caller callee.index o
  | .completion callee j n => n = .nonterminal callee.slot callee.index j ∧
    S.Derives [callee.slot] callee.index j
  | .arrival d site k j o n => ∃ b x, Leads S.graph.slots b x d ∧ S.ReadsItem b site k o ∧
    S.Derives [x] k j ∧ n = S.graph.symbolNode x k j
  | .call _ | .node _ | .packed .. | .obstacle _ => True

/-- A nonterminal as a whole is followed by nothing. -/
lemma Valid.not_leads_start (hS : S.Valid) {x d : SlotId} :
    ¬ Leads S.graph.slots S.start x d := by
  rintro ⟨s, hs, -⟩
  obtain ⟨name, hn⟩ := hS.start
  obtain ⟨s', hs', -⟩ := Slots.role?_nonterminal.mp hn
  rw [hs] at hs'
  cases hs'

lemma readsItem_of_leads (hS : S.Valid) {b x d : SlotId} {site : CallSite} {i : Nat}
    {o : Option Node} (h : S.Means (.item b site i o)) (hl : Leads S.graph.slots b x d) :
    S.ReadsItem b site i o := by
  apply h.resolve_left
  rintro rfl
  exact hS.not_leads_start hl

lemma readsItem_of_done (hS : S.Valid) {e a : SlotId} {n : Nat} {site : CallSite} {i : Nat}
    {o : Option Node} (h : S.Means (.item e site i o))
    (he : role? S.graph.slots e = some (.done a n)) : S.ReadsItem e site i o := by
  apply h.resolve_left
  rintro rfl
  obtain ⟨name, hn⟩ := hS.start
  rw [he] at hn
  cases hn

/-- The facts mean what they should. -/
theorem Derivable.means (hS : S.Wired) {F : Fact} (h : S.Derivable F) : S.Means F := by
  induction h with
  | root | call | part | joined | packed | empty | epsilon | emptyPacked | refuse | mismatch
    | early => trivial
  | seed => exact Or.inl rfl
  | enter hcall hf hadm =>
    exact Or.inr ⟨_, [], ⟨hcall, hf, hadm, .nil _, .nil _⟩, rfl⟩
  | scan _ hl hscan ih =>
    obtain ⟨τ, -, hτ, -⟩ := id hscan
    exact ⟨_, _, hl, readsItem_of_leads hS.toValid ih hl,
      SpanGrammar.derives_singleton_iff.mpr (Or.inl hscan), (Graph.symbolNode_terminal hτ _ _).symm⟩
  | edge _ hl hx ih => exact ⟨⟨_, hx⟩, _, hl, readsItem_of_leads hS.toValid ih hl⟩
  | resume _ _ ih ih' =>
    obtain ⟨⟨name, hn⟩, b, hl, hitem⟩ := ih
    obtain ⟨hnode, hd⟩ := ih'
    exact ⟨b, _, hl, hitem, hd, hnode.trans (Graph.symbolNode_nonterminal hn _ _).symm⟩
  | arrive _ ih =>
    obtain ⟨b, x, hl, ⟨f, xs, hr, rfl⟩, hx, rfl⟩ := ih
    refine Or.inr ⟨f, xs ++ [x], hr.concat hl hx, ?_⟩
    refine joined?_prefixNode? (hS.graph.leads_dest hl) fun hxs => ?_
    subst hxs
    exact hr.eq_index
  | @complete e a n i site o _ he ih =>
    obtain ⟨f, xs, hr, rfl⟩ := readsItem_of_done hS.toValid ih he
    obtain ⟨rfl, hd⟩ := hr.derives_head hS he
    refine ⟨?_, hd⟩
    by_cases hxs : xs = []
    · subst hxs
      obtain rfl := hr.eq_index
      rfl
    · rw [Graph.prefixNode?_done hxs he]
      rfl

/-! ### Facts are complete -/

/-- Over any symbols that derive the next stretch of the text, parsing goes on. -/
lemma Derivable.advance (hS : S.WellBuilt) {xs : List SlotId} {i j : Nat} (h : S.Derives xs i j)
    {b d : SlotId} {site : CallSite} {o : Option Node} (hitem : S.Derivable (.item b site i o))
    (hp : Path S.graph.slots b xs d) : ∃ o', S.Derivable (.item d site j o') := by
  induction h generalizing b site o d with
  | nil i =>
    obtain rfl := Slots.path_nil_iff.mp hp
    exact ⟨o, hitem⟩
  | scan hs _ ih =>
    obtain ⟨m, hl, hp⟩ := Slots.path_cons_iff.mp hp
    exact ih (.arrive (.scan hitem hl hs)) hp
  | @rule x body xs i k j hr hbody _ ih ih' =>
    obtain ⟨m, hl, hp⟩ := Slots.path_cons_iff.mp hp
    obtain ⟨f, e, a, n, hf, hpath, he⟩ := hr
    obtain ⟨name, hn⟩ := hS.wired.head_nonterminal (hS.wired.starts_head hf)
    -- the callee is entered, since it derives something
    have hcall : S.Derivable (.call ⟨x, i⟩) := .call hitem hl hn
    have hadm : S.Admits f i := fun _ =>
      Graph.admits_of_derives hS.graph hS.summarised hS.readable hbody hpath he
    obtain ⟨o', hend⟩ := ih (.enter hcall hf hadm) hpath
    exact ih' (.arrive (.resume (.edge hitem hl hn) (.complete hend he))) hp

/-- What has been read is a fact. -/
lemma Reads.item (hS : S.WellBuilt) {slot f : SlotId} {site : CallSite} {i : Nat}
    {xs : List SlotId} (h : S.Reads slot site i f xs) :
    S.Derivable (.item slot site i (S.graph.prefixNode? slot xs site.index i)) := by
  obtain ⟨o, ho⟩ := Derivable.advance hS h.derives (.enter h.call h.starts h.admits) h.path
  rcases ho.means hS.toWired with rfl | ⟨f', xs', h', rfl⟩
  · cases (Slots.head?_eq_none (Or.inr hS.start)).symm.trans (h.head hS.toWired)
  · obtain ⟨-, rfl, rfl⟩ := h.unique hS.toWired h'
    exact ho

/-- Parsing goes on just where the alternatives of a nonterminal have been read. -/
theorem item_iff (hS : S.WellBuilt) {slot a : SlotId} (hslot : head? S.graph.slots slot = some a)
    {site : CallSite} {i : Nat} {o : Option Node} :
    S.Derivable (.item slot site i o) ↔ S.ReadsItem slot site i o := by
  constructor
  · intro h
    apply (h.means hS.toWired).resolve_left
    rintro rfl
    cases (Slots.head?_eq_none (Or.inr hS.start)).symm.trans hslot
  · rintro ⟨f, xs, h, rfl⟩
    exact h.item hS

/-- But for the first descriptor of all, parsing goes on in the rules of what was called. -/
lemma Derivable.item_head (hS : S.Wired) {slot : SlotId} {site : CallSite} {i : Nat}
    {o : Option Node} (h : S.Derivable (.item slot site i o)) :
    (slot = S.start ∧ site = S.rootSite ∧ i = 0) ∨ head? S.graph.slots slot = some site.slot := by
  rcases h.means hS with hslot | ⟨f, xs, hr, -⟩
  · obtain ⟨name, hn⟩ := hS.start
    obtain ⟨-, hsite, hi, -⟩ := h.item_seed hS.toValid (hslot ▸ hn)
    exact Or.inl ⟨hslot, hsite, hi⟩
  · exact Or.inr (hr.head hS)

/-- What a nonterminal derives is read when it is called. -/
lemma exists_reads (hS : S.WellBuilt) {site : CallSite} (hsite : S.Derivable (.call site))
    {j : Nat} (hd : S.Derives [site.slot] site.index j) : ∃ e l f xs, S.Reads e site j f xs ∧
      role? S.graph.slots e = some (.done site.slot l) := by
  obtain ⟨⟨name, hn⟩, -⟩ := hsite.placed hS.toValid
  rcases SpanGrammar.derives_singleton_iff.mp hd with ⟨τ, -, hτ, -⟩ |
    ⟨body, ⟨f, e, a, l, hf, hpath, he⟩, hbody⟩
  · rw [hn] at hτ
    cases hτ
  · have hadm : S.Admits f site.index := fun _ =>
      Graph.admits_of_derives hS.graph hS.summarised hS.readable hbody hpath he
    have hr : S.Reads e site j f body := ⟨hsite, hf, hadm, hpath, hbody⟩
    obtain ⟨rfl, -⟩ := hr.derives_head hS.toWired he
    exact ⟨e, l, f, body, hr, he⟩

/-- A nonterminal that is called is completed just with what it derives. -/
theorem completion_iff (hS : S.WellBuilt) {site : CallSite} (hsite : S.Derivable (.call site))
    {j : Nat} {n : Node} : S.Derivable (.completion site j n) ↔
      n = .nonterminal site.slot site.index j ∧ S.Derives [site.slot] site.index j := by
  constructor
  · exact fun h => h.means hS.toWired
  · rintro ⟨rfl, hd⟩
    obtain ⟨e, l, f, xs, hr, he⟩ := exists_reads hS hsite hd
    have hcompl := Derivable.complete (hr.item hS) he
    obtain ⟨heq, -⟩ := hcompl.means hS.toWired
    rwa [heq] at hcompl

/-- A slot is arrived at just where one more symbol has been read. -/
theorem arrival_iff (hS : S.WellBuilt) {d : SlotId} {site : CallSite} {k j : Nat}
    {o : Option Node} {n : Node} : S.Derivable (.arrival d site k j o n) ↔
      ∃ b x, Leads S.graph.slots b x d ∧ S.ReadsItem b site k o ∧ S.Derives [x] k j ∧
        n = S.graph.symbolNode x k j := by
  constructor
  · exact fun h => h.means hS.toWired
  · rintro ⟨b, x, hl, ⟨f, xs, hr, rfl⟩, hx, rfl⟩
    have hitem := hr.item hS
    rcases hS.graph.leads_symbol hl with ⟨τ, hτ⟩ | ⟨name, hn⟩
    · rcases SpanGrammar.derives_singleton_iff.mp hx with hs | ⟨body, ⟨f', -, -, -, hf', -⟩, -⟩
      · rw [Graph.symbolNode_terminal hτ]
        exact .scan hitem hl hs
      · obtain ⟨name, hn⟩ := hS.wired.head_nonterminal (hS.wired.starts_head hf')
        rw [hτ] at hn
        cases hn
    · rw [Graph.symbolNode_nonterminal hn]
      exact .resume (.edge hitem hl hn)
        ((completion_iff hS (.call hitem hl hn)).mpr ⟨rfl, hx⟩)

/-! ### Nodes -/

/-- How a packed node comes about: at the end of a stretch for which the symbols before `slot` have
been read, the last of them from `k` on. -/
structure Splits (S : Setting) (slot : SlotId) (site : CallSite) (k j : Nat) (f : SlotId)
    (xs : List SlotId) (b x : SlotId) : Prop where
  reads : S.Reads b site k f xs
  leads : Leads S.graph.slots b x slot
  last : S.Derives [x] k j

lemma Splits.concat {slot f b x : SlotId} {site : CallSite} {k j : Nat} {xs : List SlotId}
    (h : S.Splits slot site k j f xs b x) : S.Reads slot site j f (xs ++ [x]) :=
  h.reads.concat h.leads h.last

/-- Either nothing has been read, or there was a last symbol. -/
lemma Reads.splits {slot f : SlotId} {site : CallSite} {j : Nat} {xs : List SlotId}
    (h : S.Reads slot site j f xs) : (xs = [] ∧ slot = f ∧ j = site.index) ∨
      ∃ k ys b x, xs = ys ++ [x] ∧ S.Splits slot site k j f ys b x := by
  rcases List.eq_nil_or_concat' xs with rfl | ⟨ys, x, rfl⟩
  · exact Or.inl ⟨rfl, (Slots.path_nil_iff.mp h.path).symm, h.eq_index⟩
  · obtain ⟨b, hp, hl⟩ := Slots.path_concat_iff.mp h.path
    obtain ⟨k, hys, hx⟩ := SpanGrammar.derives_append_iff.mp h.derives
    exact Or.inr ⟨k, ys, b, x, rfl, ⟨h.call, h.starts, h.admits, hp, hys⟩, hl, hx⟩

lemma Splits.arrival (hS : S.WellBuilt) {slot f b x : SlotId} {site : CallSite} {k j : Nat}
    {xs : List SlotId} (h : S.Splits slot site k j f xs b x) :
    S.Derivable (.arrival slot site k j (S.graph.prefixNode? b xs site.index k)
      (S.graph.symbolNode x k j)) :=
  (arrival_iff hS).mpr ⟨b, x, h.leads, ⟨f, xs, h.reads, rfl⟩, h.last, rfl⟩

/-- A packed node stands for a last symbol with what was read before it, or for an empty rule. -/
lemma Derivable.splits (hS : S.Wired) {m : Node} {slot : SlotId} {k : Nat} {o : Option Node}
    {n : Node} (h : S.Derivable (.packed m slot k o n)) :
    (∃ site j f xs b x, S.Splits slot site k j f xs b x ∧
      o = S.graph.prefixNode? b xs site.index k ∧ n = S.graph.symbolNode x k j ∧
      S.joined? slot site j o = some m) ∨
    ∃ site a l, S.Reads slot site k slot [] ∧ role? S.graph.slots slot = some (.done a l) ∧
      m = .nonterminal a k k ∧ o = none ∧ n = .epsilon k := by
  cases h with
  | packed ha hm =>
    obtain ⟨b, x, hl, ⟨f, xs, hr, rfl⟩, hx, rfl⟩ := ha.means hS
    exact Or.inl ⟨_, _, f, xs, b, x, ⟨hr, hl, hx⟩, rfl, rfl, hm⟩
  | emptyPacked hi he =>
    obtain ⟨f, xs, hr, ho⟩ := readsItem_of_done hS.toValid (hi.means hS) he
    obtain rfl := Graph.prefixNode?_eq_none_iff.mp ho.symm
    obtain rfl := Slots.path_nil_iff.mp hr.path
    exact Or.inr ⟨_, _, _, hr, he, rfl, rfl, rfl⟩

/-- The packed nodes below a node that is made on arriving at a slot. -/
lemma packed_iff (hS : S.WellBuilt) {m : Node} {slot : SlotId} {k : Nat} {o : Option Node}
    {n : Node} : S.Derivable (.packed m slot k o n) ↔
      (∃ site j f xs b x, S.Splits slot site k j f xs b x ∧
        o = S.graph.prefixNode? b xs site.index k ∧ n = S.graph.symbolNode x k j ∧
        S.joined? slot site j o = some m) ∨
      ∃ site a l, S.Reads slot site k slot [] ∧ role? S.graph.slots slot = some (.done a l) ∧
        m = .nonterminal a k k ∧ o = none ∧ n = .epsilon k := by
  constructor
  · exact fun h => h.splits hS.toWired
  · rintro (⟨site, j, f, xs, b, x, h, rfl, rfl, hm⟩ | ⟨site, a, l, hr, he, rfl, rfl, rfl⟩)
    · exact .packed (h.arrival hS) hm
    · exact .emptyPacked (hr.item hS) he

/-- The facts determine what is stored: a slot tells which symbols were read, and the pivot where
the last of them starts. -/
theorem Wired.functional (hS : S.Wired) : S.Functional := by
  constructor
  · intro slot site i o o' h h'
    by_cases hslot : slot = S.start
    · obtain ⟨name, hn⟩ := hS.start
      obtain ⟨-, -, rfl⟩ := h.item_nonterminal hS.toValid (hslot ▸ hn)
      obtain ⟨-, -, rfl⟩ := h'.item_nonterminal hS.toValid (hslot ▸ hn)
      rfl
    · obtain ⟨f, xs, hr, rfl⟩ := (h.means hS).resolve_left hslot
      obtain ⟨f', xs', hr', rfl⟩ := (h'.means hS).resolve_left hslot
      obtain ⟨-, rfl, rfl⟩ := hr.unique hS hr'
      rfl
  · intro m n n' slot k o o' h h'
    rcases h.splits hS with ⟨site, j, f, xs, b, x, hs, rfl, rfl, hm⟩ |
      ⟨site, a, l, hr, -, -, rfl, rfl⟩ <;>
      rcases h'.splits hS with ⟨site', j', f', xs', b', x', hs', rfl, rfl, hm'⟩ |
        ⟨site', a', l', hr', -, -, rfl, rfl⟩
    · obtain ⟨-, -, hxs⟩ := hs.concat.unique hS hs'.concat
      obtain ⟨rfl, rfl⟩ : xs = xs' ∧ x = x' := by simpa using hxs
      obtain ⟨rfl, -⟩ := hS.wired.leads_unique hs.leads hs'.leads
      have hspan := (span?_joined hm).symm.trans (span?_joined hm')
      obtain ⟨hi, rfl⟩ : site.index = site'.index ∧ j = j' := by simpa using hspan
      rw [hi]
      exact ⟨rfl, rfl⟩
    · obtain ⟨-, -, hxs⟩ := hs.concat.unique hS hr'
      simp at hxs
    · obtain ⟨-, -, hxs⟩ := hr.unique hS hs'.concat
      simp at hxs
    · exact ⟨rfl, rfl⟩

/-- There is a node for a nonterminal just where it is called and derives something. -/
theorem node_nonterminal_iff (hS : S.WellBuilt) {a : SlotId} {i j : Nat} :
    S.Derivable (.node (.nonterminal a i j)) ↔
      S.Derivable (.call ⟨a, i⟩) ∧ S.Derives [a] i j := by
  constructor
  · intro h
    generalize hn : Node.nonterminal a i j = n at h
    cases h with
    | part ha =>
      obtain ⟨b, x, hl, ⟨f, xs, hr, rfl⟩, hx, rfl⟩ := (arrival_iff hS).mp ha
      rcases hS.graph.leads_symbol hl with ⟨τ, hτ⟩ | ⟨name, hname⟩
      · rw [Graph.symbolNode_terminal hτ] at hn
        cases hn
      · rw [Graph.symbolNode_nonterminal hname] at hn
        cases hn
        exact ⟨.call (hr.item hS) hl hname, hx⟩
    | joined ha hm =>
      obtain ⟨b, x, hl, ⟨f, xs, hr, rfl⟩, hx, rfl⟩ := (arrival_iff hS).mp ha
      subst hn
      obtain ⟨⟨l, he⟩, rfl, rfl⟩ := joined?_eq_nonterminal_iff.mp hm
      obtain ⟨rfl, hd⟩ := (hr.concat hl hx).derives_head hS.toWired he
      exact ⟨hr.call, hd⟩
    | empty hi he =>
      cases hn
      obtain ⟨f, xs, hr, ho⟩ := readsItem_of_done hS.toValid (hi.means hS.toWired) he
      obtain rfl := Graph.prefixNode?_eq_none_iff.mp ho.symm
      obtain ⟨rfl, hd⟩ := hr.derives_head hS.toWired he
      obtain rfl := hr.eq_index
      exact ⟨hr.call, hd⟩
    | epsilon => cases hn
  · rintro ⟨hcall, hd⟩
    obtain ⟨e, l, f, xs, hr, he⟩ := exists_reads hS hcall hd
    rcases hr.splits with ⟨rfl, -, rfl⟩ | ⟨k, ys, b, x, rfl, hs⟩
    · exact .empty (hr.item hS) he
    · exact .joined (hs.arrival hS) (joined?_eq_nonterminal_iff.mpr ⟨⟨l, he⟩, rfl, rfl⟩)

/-- There is an intermediate node only where more than one symbol of a rule has been read, and the
rule goes on. -/
theorem node_intermediate (hS : S.WellBuilt) {slot : SlotId} {i j : Nat}
    (h : S.Derivable (.node (.intermediate slot i j))) :
    (∃ s, S.graph.slots[slot]? = some (.body s)) ∧
      ∃ site f xs, site.index = i ∧ S.Reads slot site j f xs ∧ 2 ≤ xs.length := by
  generalize hn : Node.intermediate slot i j = n at h
  cases h with
  | part ha =>
    obtain ⟨b, x, hl, -, -, rfl⟩ := (arrival_iff hS).mp ha
    rcases hS.graph.leads_symbol hl with ⟨τ, hτ⟩ | ⟨name, hname⟩
    · rw [Graph.symbolNode_terminal hτ] at hn
      cases hn
    · rw [Graph.symbolNode_nonterminal hname] at hn
      cases hn
  | joined ha hm =>
    obtain ⟨b, x, hl, ⟨f, xs, hr, rfl⟩, hx, rfl⟩ := (arrival_iff hS).mp ha
    subst hn
    obtain ⟨hbody, hxs, rfl, rfl, rfl⟩ := joined?_eq_intermediate_iff.mp hm
    refine ⟨hbody, _, f, xs ++ [x], rfl, hr.concat hl hx, ?_⟩
    have hpos := List.length_pos_iff.mpr fun hnil => hxs (Graph.prefixNode?_eq_none_iff.mpr hnil)
    simp
    omega
  | empty => cases hn
  | epsilon => cases hn

end Setting

end GeneralParser
