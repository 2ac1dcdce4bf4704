import GeneralParser.Proofs.Renumbering
import GeneralParser.Proofs.Trees

/-!
# Ambiguity

A text has just one derivation tree if no node below the root is ambiguous, and else it has more. A
cycle in the forest makes for infinitely many trees: a node on it must have another packed node by
which one gets out. Every node below the root is met on the way to some tree of the whole text.
-/

namespace GeneralParser

section

variable [PatternEngine]

open Slots (role? head? Leads Path Starts Spelled)
open Rules (ParsedAs)
open Relation (ReflTransGen)

namespace Forest

variable {f : Forest} {g : Graph} {rules : List (String × List Symbol)} {t : Text}

/-! ### Without choice -/

/-- There is nothing to choose at a node or below it. -/
def Unambiguous (f : Forest) (v : NodeId) : Prop :=
  ∀ u, ReflTransGen (fun v w => w ∈ f.children v) v u → f.isAmbiguous u = false

omit [PatternEngine] in
lemma Unambiguous.child {v c : NodeId} (h : f.Unambiguous v) (hc : c ∈ f.children v) :
    f.Unambiguous c :=
  fun u hu => h u (.head hc hu)

/-- If there is nothing to choose, then there is only one way to read off trees. -/
theorem Yields.unique {v : NodeId} {met met' : List NodeId} {ts ts' : List Tree}
    (hun : f.Unambiguous v) (h : f.Yields g v met ts) (h' : f.Yields g v met' ts') : ts = ts' := by
  induction h generalizing met' ts' with
  | terminal hv hτ =>
    cases h' with
    | terminal hv' hτ' =>
      cases Option.mem_unique hv hv'
      cases Option.mem_unique hτ hτ'
      rfl
    | epsilon hv' | nonterminal hv' | intermediate hv' | single hv' | pair hv' =>
      cases Option.mem_unique hv hv'
  | epsilon hv =>
    cases h' with
    | epsilon => rfl
    | terminal hv' | nonterminal hv' | intermediate hv' | single hv' | pair hv' =>
      cases Option.mem_unique hv hv'
  | nonterminal hv ha hq hqn he _ ih =>
    cases h' with
    | nonterminal hv' ha' hq' hqn' he' h' =>
      cases Option.mem_unique hv hv'
      cases Option.mem_unique ha ha'
      obtain rfl := eq_of_isAmbiguous_eq_false hv rfl (hun _ .refl) hq hq'
      cases Option.mem_unique hqn hqn'
      cases Option.mem_unique he he'
      rw [ih (hun.child hq) h']
    | terminal hv' | epsilon hv' | intermediate hv' | single hv' | pair hv' =>
      cases Option.mem_unique hv hv'
  | intermediate hv hq _ ih =>
    cases h' with
    | intermediate hv' hq' h' =>
      obtain rfl := eq_of_isAmbiguous_eq_false hv rfl (hun _ .refl) hq hq'
      exact ih (hun.child hq) h'
    | terminal hv' | epsilon hv' | nonterminal hv' | single hv' | pair hv' =>
      cases Option.mem_unique hv hv'
  | single hq hparts _ ih =>
    cases h' with
    | single _ hparts' h' =>
      cases hparts.symm.trans hparts'
      exact ih (hun.child (by simp [hparts])) h'
    | pair _ hparts' => cases hparts.symm.trans hparts'
    | terminal hv' | epsilon hv' | nonterminal hv' | intermediate hv' =>
      cases Option.mem_unique hq hv'
  | pair hq hparts _ _ ih ih' =>
    cases h' with
    | single _ hparts' => cases hparts.symm.trans hparts'
    | pair _ hparts' hl hr =>
      cases hparts.symm.trans hparts'
      rw [ih (hun.child (by simp [hparts])) hl, ih' (hun.child (by simp [hparts])) hr]
    | terminal hv' | epsilon hv' | nonterminal hv' | intermediate hv' =>
      cases Option.mem_unique hq hv'

/-! ### Trees around trees -/

/-- What is read off at a node, is met there. -/
lemma Yields.mem_met {v : NodeId} {met : List NodeId} {ts : List Tree}
    (h : f.Yields g v met ts) : v ∈ met := by
  cases h <;> simp

/-- Whatever is read off at node `u`, can be read off as a part of something at `v`. -/
structure Surrounds (f : Forest) (g : Graph) (v u : NodeId) (F : List Tree → List Tree) : Prop where
  injective : Function.Injective F
  yields {met : List NodeId} {ts : List Tree} : f.Yields g u met ts →
    ∃ met', (∀ w ∈ met, w ∈ met') ∧ f.Yields g v met' (F ts)

lemma Surrounds.refl (v : NodeId) : f.Surrounds g v v id :=
  ⟨Function.injective_id, fun h => ⟨_, fun _ => id, h⟩⟩

lemma Surrounds.trans {v u w : NodeId} {F G : List Tree → List Tree}
    (h : f.Surrounds g v u F) (h' : f.Surrounds g u w G) : f.Surrounds g v w (F ∘ G) := by
  refine ⟨h.injective.comp h'.injective, fun hw => ?_⟩
  obtain ⟨met, hmet, hu⟩ := h'.yields hw
  obtain ⟨met', hmet', hv⟩ := h.yields hu
  exact ⟨met', fun x hx => hmet' x (hmet x hx), hv⟩

/-! ### Nodes stand for something -/

lemma Represents.nonempty {l : Option NodeId} {body : List Symbol} {i j : Nat}
    (h : f.Represents g rules t l body i j) : ∃ ts, ParsedAs rules t body i j ts := by
  cases h with
  | absent => exact ⟨[], .nil _⟩
  | node _ _ hd => exact Rules.derives_iff_exists_parsedAs.mp hd

lemma Stands.nonempty {v : NodeId} {T : Set (List Tree)} (h : f.Stands g rules t v T) :
    T.Nonempty := by
  cases h with
  | node hv => exact hv.nonempty
  | packed hv hcut =>
    cases hcut with
    | empty => exact ⟨[], .nil _, by simp⟩
    | symbols _ hl hr =>
      obtain ⟨us, hus⟩ := hl.nonempty
      obtain ⟨ts, hts⟩ := hr.nonempty
      exact ⟨_, hus.concat hts⟩

/-- Trees of one body tell where its last symbol starts. -/
lemma CutInto.pivot_unique {q q' : NodeId} {body : List Symbol} {i k k' j : Nat} {ts : List Tree}
    (h : f.CutInto g rules t q body i k j) (h' : f.CutInto g rules t q' body i k' j)
    (hts : ParsedAs rules t body i j ts) (hk : ∀ u ∈ ts.getLast?, u.left = k)
    (hk' : ∀ u ∈ ts.getLast?, u.left = k') : k = k' := by
  rcases List.eq_nil_or_concat' ts with rfl | ⟨us, u, rfl⟩
  · cases h with
    | empty =>
      generalize hbody : ([] : List Symbol) = body at h'
      cases h' with
      | empty => rfl
      | symbols => simp at hbody
    | symbols =>
      obtain ⟨_, us, u, -, -, hnil⟩ := Rules.parsedAs_concat_iff.mp hts
      simp at hnil
  · exact (hk u (by simp)).symm.trans (hk' u (by simp))

end Forest

namespace State.Exact

variable {s : State} {g : Graph} {rules : List (String × List Symbol)} {t : Text} {S : Setting}
  (hs : s.Exact g rules t) (hg : g.Spells rules) (hf : s.forest.Sound S)
include hs hg

/-- Every node that stands for something, has trees. -/
lemma exists_yields {v : NodeId} {T : Set (List Tree)} (hT : s.forest.Stands g rules t v T) :
    ∃ met ts, s.forest.Yields g v met ts ∧ ts ∈ T := by
  obtain ⟨ts, hts⟩ := hT.nonempty
  obtain ⟨met, hmet⟩ := (hs.yields_iff hg hT).mpr hts
  exact ⟨met, ts, hmet, hts⟩

include hf

/-- What is below a node that stands for something, stands for something itself, and is read off as
a part of it. -/
lemma exists_surrounds_child {v c : NodeId} {T : Set (List Tree)}
    (hT : s.forest.Stands g rules t v T) (hc : c ∈ s.forest.children v) :
    (∃ T', s.forest.Stands g rules t c T') ∧ ∃ F, s.forest.Surrounds g v c F := by
  cases hT with
  | @node _ i j hv =>
    cases hv with
    | node hv hstands hd =>
      cases hstands with
      | terminal => simp [hf.children_eq_nil (.inl ⟨_, _, _, hv⟩)] at hc
      | epsilon => simp [hf.children_eq_nil (.inr ⟨_, hv⟩)] at hc
      | @nonterminal _ A _ _ ha =>
        obtain ⟨e, k, l, body, hqn, he, -, hcut⟩ := hs.cut_of_nonterminal hv ha hc
        refine ⟨⟨_, .packed hqn hcut⟩, fun ts => [.node A l i j ts], ?_, fun h => ?_⟩
        · intro ts ts' heq
          simpa using heq
        · exact ⟨_, fun _ => List.mem_cons_of_mem _, .nonterminal hv ha hc hqn he h⟩
      | intermediate _ hprec =>
        obtain ⟨k, hqn, hcut⟩ := hs.cut_of_intermediate hg hv hprec hc
        exact ⟨⟨_, .packed hqn hcut⟩, id, Function.injective_id, fun h =>
          ⟨_, fun _ => List.mem_cons_of_mem _, .intermediate hv hc h⟩⟩
  | packed hv hcut =>
    cases hcut with
    | empty hparts hr =>
      obtain rfl : c = _ := by simpa [hparts] using hc
      exact ⟨⟨_, .node (.node hr (.epsilon _) (.nil _))⟩, id, Function.injective_id, fun h =>
        ⟨_, fun _ => List.mem_cons_of_mem _, .single hv hparts h⟩⟩
    | @symbols _ r _ _ _ _ _ hparts hl hr =>
      cases hl with
      | absent =>
        obtain rfl : c = _ := by simpa [hparts] using hc
        exact ⟨⟨_, .node hr⟩, id, Function.injective_id, fun h =>
          ⟨_, fun _ => List.mem_cons_of_mem _, .single hv hparts h⟩⟩
      | @node l _ _ _ _ hln hstands hd =>
        -- the other part is read off in any way
        have hl := Forest.Stands.node (.node hln hstands hd)
        have hr := Forest.Stands.node hr
        obtain ⟨metl, us, hus, -⟩ := hs.exists_yields hg hl
        obtain ⟨metr, ws, hws, -⟩ := hs.exists_yields hg hr
        have hc : c = l ∨ c = r := by simpa [hparts] using hc
        rcases hc with rfl | rfl
        · refine ⟨⟨_, hl⟩, fun ts => ts ++ ws, List.append_left_injective ws, fun h => ?_⟩
          exact ⟨_, fun w hw => by simp [hw], .pair hv hparts h hws⟩
        · refine ⟨⟨_, hr⟩, fun ts => us ++ ts, List.append_right_injective us, fun h => ?_⟩
          exact ⟨_, fun w hw => by simp [hw], .pair hv hparts hus h⟩

/-- All below a node that stands for something, is read off as a part of it. -/
theorem exists_surrounds {v u : NodeId} {T : Set (List Tree)}
    (hT : s.forest.Stands g rules t v T)
    (hu : ReflTransGen (fun v w => w ∈ s.forest.children v) v u) :
    (∃ T', s.forest.Stands g rules t u T') ∧ ∃ F, s.forest.Surrounds g v u F := by
  induction hu with
  | refl => exact ⟨⟨T, hT⟩, id, .refl v⟩
  | tail _ hc ih =>
    obtain ⟨⟨T', hT'⟩, F, hF⟩ := ih
    obtain ⟨hstands, G, hG⟩ := hs.exists_surrounds_child hg hf hT' hc
    exact ⟨hstands, _, hF.trans hG⟩

/-- At an ambiguous node, different trees are read off. -/
theorem exists_two_yields {v : NodeId} {T : Set (List Tree)} (hT : s.forest.Stands g rules t v T)
    (h : s.forest.isAmbiguous v = true) : ∃ met ts met' ts', s.forest.Yields g v met ts ∧
      s.forest.Yields g v met' ts' ∧ ts ≠ ts' := by
  obtain ⟨n, q, q', hv, hn, hq, hq', hne⟩ := hf.wellFormed.exists_ne_of_isAmbiguous h
  obtain ⟨body, i, j, hstands, -, -⟩ := hT.of_node hv hn
  cases hstands with
  | terminal => simp [hf.children_eq_nil (.inl ⟨_, _, _, hv⟩)] at hq
  | epsilon => simp [hf.children_eq_nil (.inr ⟨_, hv⟩)] at hq
  | nonterminal ha =>
    obtain ⟨e, k, l, body, hqn, he, hbody, hcut⟩ := hs.cut_of_nonterminal hv ha hq
    obtain ⟨e', k', l', body', hqn', he', hbody', hcut'⟩ := hs.cut_of_nonterminal hv ha hq'
    obtain ⟨met, ts, hmet, hts, hk⟩ := hs.exists_yields hg (.packed hqn hcut)
    obtain ⟨met', ts', hmet', -, hk'⟩ := hs.exists_yields hg (.packed hqn' hcut')
    refine ⟨_, _, _, _, .nonterminal hv ha hq hqn he hmet, .nonterminal hv ha hq' hqn' he' hmet',
      fun heq => hne ?_⟩
    -- equal trees are by the same alternative, so the cuts are in the same place
    obtain ⟨rfl, rfl⟩ : l = l' ∧ ts = ts' := by simpa using heq
    obtain rfl := hg.ended_unique he he'
    obtain rfl := Option.mem_unique hbody hbody'
    obtain rfl := hcut.pivot_unique hcut' hts hk hk'
    rw [hqn, hqn']
  | intermediate _ hprec =>
    obtain ⟨k, hqn, hcut⟩ := hs.cut_of_intermediate hg hv hprec hq
    obtain ⟨k', hqn', hcut'⟩ := hs.cut_of_intermediate hg hv hprec hq'
    obtain ⟨met, ts, hmet, hts, hk⟩ := hs.exists_yields hg (.packed hqn hcut)
    obtain ⟨met', ts', hmet', -, hk'⟩ := hs.exists_yields hg (.packed hqn' hcut')
    refine ⟨_, _, _, _, .intermediate hv hq hmet, .intermediate hv hq' hmet', ?_⟩
    rintro rfl
    obtain rfl := hcut.pivot_unique hcut' hts hk hk'
    exact hne (hqn.trans hqn'.symm)

/-! ### Trees of the whole text -/

variable {root a : SlotId} {start : String}
  (hroot : s.forest.node? root = some (.nonterminal a 0 t.length))
  (hstart : role? g.slots a = some (.nonterminal start))
include hroot hstart

omit hg hf in
lemma stands_root : s.forest.Stands g rules t root
    {ts | ParsedAs rules t [.nonterminal start] 0 t.length ts} :=
  .node (.node hroot (.nonterminal hstart) ((hs.nonterminal_iff hstart).mp ⟨root, hroot⟩).2)

omit hf in
/-- What is read off at the root, is a tree of the whole text. -/
lemma parseTree_of_yields {met : List NodeId} {ts : List Tree}
    (h : s.forest.Yields g root met ts) :
    ∃ tree, ts = [tree] ∧ Rules.ParseTree rules t start tree := by
  have hts := (hs.yields_iff hg (hs.stands_root hroot hstart)).mp ⟨met, h⟩
  obtain ⟨l, body, us, -, -, rfl⟩ := Rules.parsedAs_nonterminal_iff.mp hts
  exact ⟨_, rfl, hts⟩

variable {v : NodeId} (hv : ReflTransGen (fun v w => w ∈ s.forest.children v) root v)
include hv

/-- Different trees at an ambiguous node are parts of different trees of the whole text. -/
lemma exists_two_parseTrees (h : s.forest.isAmbiguous v = true) :
    ∃ tree tree', Rules.ParseTree rules t start tree ∧ Rules.ParseTree rules t start tree' ∧
      tree ≠ tree' := by
  obtain ⟨⟨T, hT⟩, F, hF⟩ := hs.exists_surrounds hg hf (hs.stands_root hroot hstart) hv
  obtain ⟨met, ts, met', ts', hts, hts', hne⟩ := hs.exists_two_yields hg hf hT h
  obtain ⟨_, -, hyields⟩ := hF.yields hts
  obtain ⟨_, -, hyields'⟩ := hF.yields hts'
  obtain ⟨tree, htree, hparse⟩ := hs.parseTree_of_yields hg hroot hstart hyields
  obtain ⟨tree', htree', hparse'⟩ := hs.parseTree_of_yields hg hroot hstart hyields'
  refine ⟨tree, tree', hparse, hparse', ?_⟩
  rintro rfl
  exact hne (hF.injective (htree.trans htree'.symm))

/-- Every node below the root is met on the way to some tree of the whole text. -/
lemma exists_parseTree_met : ∃ met tree, s.forest.Yields g root met [tree] ∧ v ∈ met ∧
    Rules.ParseTree rules t start tree := by
  obtain ⟨⟨T, hT⟩, F, hF⟩ := hs.exists_surrounds hg hf (hs.stands_root hroot hstart) hv
  obtain ⟨met, ts, hts, -⟩ := hs.exists_yields hg hT
  obtain ⟨met', hmet', hyields⟩ := hF.yields hts
  obtain ⟨tree, heq, hparse⟩ := hs.parseTree_of_yields hg hroot hstart hyields
  exact ⟨met', tree, heq ▸ hyields, hmet' v hts.mem_met, hparse⟩

end State.Exact

/-! ### Results -/

/-- A text has just one tree if and only if no node below the root is ambiguous, and every node
below the root is met on the way to some tree of the whole text. -/
theorem parse_unique_iff {share : Bool} {rules : List (String × List Symbol)} {g : Graph}
    (hbuild : (Rules.ofList share rules).build = .ok g) {start : String} {id : SlotId}
    (hstart : g.nonterminal? start = some id) (text : String) (config : Config) {r : Success}
    (hr : parse g (.ofString text) start config = .ok r) :
    ((∃! tree, Rules.ParseTree rules (.ofString text) start tree) ↔
      ∀ v ∈ r.forest.reachable r.root, r.forest.isAmbiguous v = false) ∧
    ∀ v ∈ r.forest.reachable r.root, ∃ met tree, r.forest.Yields g r.root met [tree] ∧
      v ∈ met ∧ Rules.ParseTree rules (.ofString text) start tree := by
  have hg := Graph.spells_of_build hbuild
  obtain ⟨hwell, hends⟩ := hg.parse_ends hstart text config
  rw [hr] at hends
  cases hends with
  | @parsed s root h hroot =>
    have hs := h.exact hwell hg
    have hf := (h.sound hwell).forest
    have hstart := hg.lookup_iff.mp hstart
    have hreach {v : NodeId} : v ∈ s.forest.reachable root ↔
        ReflTransGen (fun v w => w ∈ s.forest.children v) root v :=
      hf.mem_reachable_iff (Forest.lt_size_of_node? hroot)
    refine ⟨⟨?_, ?_⟩, fun v hv => hs.exists_parseTree_met hg hf hroot hstart (hreach.mp hv)⟩
    · rintro ⟨tree, -, hunique⟩ v hv
      by_contra hamb
      obtain ⟨u, u', hu, hu', hne⟩ := hs.exists_two_parseTrees hg hf hroot hstart (hreach.mp hv)
        (by simpa using hamb)
      exact hne ((hunique u hu).trans (hunique u' hu').symm)
    · intro hun
      have hT := hs.stands_root hroot hstart
      obtain ⟨met, ts, hts, -⟩ := hs.exists_yields hg hT
      obtain ⟨tree, rfl, htree⟩ := hs.parseTree_of_yields hg hroot hstart hts
      refine ⟨tree, htree, fun tree' htree' => ?_⟩
      obtain ⟨met', hts'⟩ := (hs.yields_iff hg hT).mpr htree'
      simpa using hts'.unique (fun u hu => hun u (hreach.mpr hu)) hts

end

/-- The forest of a single letter has cycles, and so the letter has more than one tree. -/
theorem parse_letter_not_unique :
    (Rules.ofList true Rules.letters).build = .ok Graph.letters ∧
    Graph.letters.nonterminal? "S" = some 0 ∧
    ∃ r, parse Graph.letters (.ofString "a") "S" {} = .ok r ∧
      r.root ∈ r.forest.reachable r.root ∧ r.forest.isAmbiguous r.root = true ∧
      ¬ ∃! tree, Rules.ParseTree Rules.letters (.ofString "a") "S" tree := by
  have hany : (parse Graph.letters (.ofString "a") "S" {}).toOption.any (fun r =>
      decide (r.root < r.forest.size) && r.forest.isAmbiguous r.root) = true := by decide +kernel
  refine ⟨Graph.build_letters, Graph.nonterminal?_letters, ?_⟩
  cases hr : parse Graph.letters (.ofString "a") "S" {} with
  | error e =>
    rw [hr] at hany
    cases hany
  | ok r =>
    rw [hr] at hany
    obtain ⟨hlt, hamb⟩ : r.root < r.forest.size ∧ r.forest.isAmbiguous r.root = true := by
      simpa [Except.toOption] using hany
    have hroot : r.root ∈ r.forest.reachable r.root :=
      (DepthFirst.mem_order_iff hlt).mpr .refl
    refine ⟨r, rfl, hroot, hamb, fun hunique => ?_⟩
    have hno := (parse_unique_iff Graph.build_letters Graph.nonterminal?_letters "a" {} hr).1.mp
      hunique r.root hroot
    rw [hamb] at hno
    cases hno

end GeneralParser
