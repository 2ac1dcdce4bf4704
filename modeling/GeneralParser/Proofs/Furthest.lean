import GeneralParser.Proofs.Engine.Obstacle
import GeneralParser.Proofs.Exactness
import GeneralParser.Proofs.Grammar.Onward
import GeneralParser.Proofs.Prediction
import Mathlib.Data.Nat.Find

/-!
# The furthest point

Where parsing gets furthest, it takes note of an obstacle, provided that every nonterminal derives
something if only the terminals match. Say parsing never gets beyond an offset. A productive
nonterminal that is called there either meets an obstacle or derives nothing but the empty stretch,
so from any slot that is reached there one meets an obstacle or comes to the end of the rule, and
returns to the callers, up to the start.
-/

namespace GeneralParser

section

variable [PatternEngine]

open Slots (role? head? Leads Path Starts Spelled)

/-- A nonterminal is productive if it has a finite derivation tree, whatever the terminals in it
match. -/
inductive Rules.Productive (rules : List (String × List Symbol)) : String → Prop
  | rule {A : String} {body : List Symbol} : (A, body) ∈ rules →
    (∀ B, .nonterminal B ∈ body → Productive rules B) → Productive rules A

/-- A nonterminal among the slots that spell a body is one of the body. -/
lemma Slots.Spelled.nonterminal_mem {slots : Array Slot} {xs : List SlotId} {body : List Symbol}
    (h : Spelled slots xs body) {x : SlotId} (hx : x ∈ xs) {A : String}
    (hA : role? slots x = some (.nonterminal A)) : .nonterminal A ∈ body := by
  have hmem : role? slots x ∈ body.map fun X => some X.role := h ▸ List.mem_map_of_mem hx
  obtain ⟨X, hX, hrole⟩ := List.mem_map.mp hmem
  rw [hA] at hrole
  cases X with
  | terminal τ => simp [Symbol.role] at hrole
  | nonterminal B =>
    obtain rfl : B = A := by simpa [Symbol.role] using hrole
    exact hX

/-! ### The largest offset -/

namespace Setting

variable {S : Setting}

/-- Parsing goes on somewhere at offset `i`. -/
def Reaches (S : Setting) (i : Nat) : Prop := ∃ slot site o, S.Derivable (.item slot site i o)

/-- Parsing gets to offset `i`, and not beyond. -/
structure Peaks (S : Setting) (i : Nat) : Prop where
  reaches : S.Reaches i
  le {j : Nat} : S.Reaches j → j ≤ i

lemma exists_peaks (hS : S.Valid) : ∃ i, S.Peaks i := by
  classical
  have hle {j : Nat} (hj : S.Reaches j) : j ≤ S.text.length := by
    obtain ⟨slot, site, o, h⟩ := hj
    exact (h.placed hS).2.2.2.1
  have hzero : S.Reaches 0 := ⟨_, _, _, .seed⟩
  exact ⟨Nat.findGreatest S.Reaches S.text.length, Nat.findGreatest_spec (hle hzero) hzero,
    fun hj => Nat.le_findGreatest (hle hj) hj⟩

/-- Calls are made where parsing goes on. -/
lemma Derivable.reaches_call {site : CallSite} (h : S.Derivable (.call site)) :
    S.Reaches site.index := by
  cases h with
  | root => exact ⟨_, _, _, .seed⟩
  | call hitem _ _ => exact ⟨_, _, _, hitem⟩

/-- Obstacles are met where parsing goes on. -/
lemma Derivable.reaches_obstacle {o : Obstacle} (h : S.Derivable (.obstacle o)) :
    S.Reaches o.index := by
  cases h with
  | refuse hcall _ _ _ _ => exact hcall.reaches_call
  | mismatch hitem _ _ _ => exact ⟨_, _, _, hitem⟩
  | early hitem _ _ => exact ⟨_, _, _, hitem⟩

/-! ### Going on at the largest offset -/

section

variable (hS : S.WellBuilt) {i : Nat} (hi : S.Peaks i)
include hS hi

/-- Where every nonterminal on the way can be passed, one meets an obstacle or gets over all
symbols. -/
lemma Peaks.pass {b d : SlotId} {xs : List SlotId} (hp : Path S.graph.slots b xs d)
    (hpass : ∀ x ∈ xs, ∀ {A}, role? S.graph.slots x = some (.nonterminal A) →
      S.Derivable (.call ⟨x, i⟩) → S.Derives [x] i i ∨ S.Blocked i)
    {site : CallSite} {o : Option Node} (hitem : S.Derivable (.item b site i o)) :
    (∃ o', S.Derivable (.item d site i o')) ∨ S.Blocked i := by
  induction hp generalizing o with
  | nil => exact Or.inl ⟨o, hitem⟩
  | @cons b x m d xs hl _ ih =>
    have hrest {o' : Option Node} (hnext : S.Derivable (.item m site i o')) :=
      ih (fun y hy => hpass y (List.mem_cons_of_mem _ hy)) hnext
    rcases hS.graph.leads_symbol hl with ⟨τ, hτ⟩ | ⟨A, hA⟩
    · rcases hitem.scan_or_blocked hS hl hτ with ⟨j, hj, o', hnext⟩ | hblocked
      · -- the terminal takes nothing, since parsing does not get any further
        obtain rfl : j = i :=
          Nat.le_antisymm (hi.le ⟨_, _, _, hnext⟩) (hS.toValid.scan_le hj).1
        exact hrest hnext
      · exact Or.inr hblocked
    · rcases hpass x List.mem_cons_self hA (.call hitem hl hA) with hd | hblocked
      · obtain ⟨o', hnext⟩ := hitem.advance hS hd (Slots.path_singleton_iff.mpr hl)
        exact hrest hnext
      · exact Or.inr hblocked

variable {rules : List (String × List Symbol)} (hg : S.graph.Spells rules)
include hg

/-- A productive nonterminal that is called at the largest offset derives the empty stretch there,
or an obstacle is met. -/
theorem Peaks.derives_or_blocked {A : String} (hA : Rules.Productive rules A) {a : SlotId}
    (ha : role? S.graph.slots a = some (.nonterminal A)) (hcall : S.Derivable (.call ⟨a, i⟩)) :
    S.Derives [a] i i ∨ S.Blocked i := by
  induction hA generalizing a with
  | @rule A body hmem _ ih =>
    obtain ⟨l, hbody⟩ := List.mem_iff_getElem?.mp (Rules.mem_alternatives.mpr hmem)
    obtain ⟨e, xs, he, ⟨⟨a', f, hf, hp⟩, hxs⟩⟩ := hg.exists_end ha hbody
    have hdone : role? S.graph.slots e = some (.done a l) := (he e).mpr rfl
    have hhead := (hS.wired.path_head hp).trans (hS.wired.starts_head hf)
    obtain rfl := Option.some.inj ((Slots.head?_of_role_done hdone).symm.trans hhead)
    rcases Derivable.enter_or_blocked hS hcall hf with hitem | hblocked
    · have hpass : ∀ x ∈ xs, ∀ {B}, role? S.graph.slots x = some (.nonterminal B) →
          S.Derivable (.call ⟨x, i⟩) → S.Derives [x] i i ∨ S.Blocked i := by
        intro x hx B hB hcallB
        exact ih B (hxs.nonterminal_mem hx hB) hB hcallB
      rcases hi.pass hS hp hpass hitem with ⟨o, hend⟩ | hblocked
      · obtain ⟨f', ys, hr, -⟩ := readsItem_of_done hS.toValid (hend.means hS.toWired) hdone
        exact Or.inl (hr.derives_head hS.toWired hdone).2
      · exact Or.inr hblocked
    · exact Or.inr hblocked

/-- From where parsing gets furthest, a rule of productive nonterminals is read to its end, or an
obstacle is met. -/
lemma Peaks.leave (hprod : ∀ {A a}, role? S.graph.slots a = some (.nonterminal A) →
      Rules.Productive rules A) {b e a : SlotId} {xs : List SlotId} {k : Nat}
    (hp : Path S.graph.slots b xs e) (he : role? S.graph.slots e = some (.done a k))
    {site : CallSite} {o : Option Node} (hitem : S.Derivable (.item b site i o)) :
    S.Derives [site.slot] site.index i ∨ S.Blocked i := by
  refine (hi.pass hS hp (fun x _ A hA hcall => ?_) hitem).imp ?_ id
  · exact hi.derives_or_blocked hS hg (hprod hA) hA hcall
  · rintro ⟨o', hend⟩
    obtain ⟨f, ys, hr, -⟩ := readsItem_of_done hS.toValid (hend.means hS.toWired) he
    exact (hr.derives_head hS.toWired he).2

end

end Setting

/-! ### Back to the start -/

def Prediction.site : Prediction → CallSite
  | .call site | .item _ site _ => site

section

variable {rules : List (String × List Symbol)} {p : Problem} (hg : p.graph.Spells rules)
  (hS : p.setting.WellBuilt) {i : Nat} (hi : p.setting.Peaks i)
  (hprod : ∀ {A a}, role? p.graph.slots a = some (.nonterminal A) → Rules.Productive rules A)
  (hend : ∀ {b a}, head? p.graph.slots b = some a →
    ∃ xs e k, Path p.graph.slots b xs e ∧ role? p.graph.slots e = some (.done a k))
include hg hS hi hprod hend

/-- What is read to its end at the largest offset returns from caller to caller up to the start, or
an obstacle is met. -/
theorem Predicted.derives_start_or_blocked {P : Prediction} (h : Predicted rules p P)
    (hd : p.setting.Derives [P.site.slot] P.site.index i) :
    p.setting.Derives [p.start] 0 i ∨ p.setting.Blocked i := by
  induction h with
  | start => exact Or.inl hd
  | enter _ _ _ ih => exact ih hd
  | scan _ _ _ _ ih => exact ih hd
  | pass _ _ _ _ ih => exact ih hd
  | @call b x d site k A hitem hl hn ih =>
    obtain ⟨o, ho⟩ := hitem.holds hg hS
    obtain ⟨f, xs, hr, -⟩ := Setting.readsItem_of_leads hS.toValid (ho.means hS.toWired) hl
    obtain ⟨o', hnext⟩ := ho.advance hS hd (Slots.path_singleton_iff.mpr hl)
    obtain ⟨ys, e, l, hp, he⟩ := hend ((hS.wired.leads_head hl).trans (hr.head hS.toWired))
    rcases hi.leave hS hg hprod hp he hnext with hd' | hblocked
    · exact ih hd'
    · exact Or.inr hblocked

/-- Where parsing gets furthest, the start symbol is read to its end, or there is an obstacle. -/
lemma Setting.Peaks.derives_start_or_blocked :
    p.setting.Derives [p.start] 0 i ∨ p.setting.Blocked i := by
  obtain ⟨slot, site, o, hitem⟩ := hi.reaches
  rcases hitem.item_head hS.toWired with ⟨-, -, rfl⟩ | hslot
  · -- parsing does not get beyond the start
    obtain ⟨A, hA⟩ := hS.start
    exact hi.derives_or_blocked hS hg (hprod hA) hA .root
  · obtain ⟨f, xs, hr, -⟩ := (item_iff hS hslot).mp hitem
    obtain ⟨ys, e, k, hp, he⟩ := hend hslot
    rcases hi.leave hS hg hprod hp he hitem with hd | hblocked
    · exact Predicted.derives_start_or_blocked hg hS hi hprod hend
        ((predicted_call_iff hg hS).mpr hr.call) hd
    · exact Or.inr hblocked

/-- There is an obstacle where parsing gets furthest, unless the text is parsed. -/
theorem Setting.Peaks.blocked (hno : ¬ p.setting.Derives [p.start] 0 p.text.length) :
    p.setting.Blocked i := by
  rcases hi.derives_start_or_blocked hg hS hprod hend with hd | hblocked
  · obtain ⟨e, l, f, xs, hr, he⟩ := exists_reads hS .root hd
    have hitem := hr.item hS
    have hne : i ≠ p.text.length := by
      rintro rfl
      exact hno hd
    have hlt : i < p.text.length := Nat.lt_of_le_of_ne (hitem.placed hS.toValid).2.2.2.1 hne
    exact ⟨_, .early hitem he hlt, Nat.le_refl _⟩
  · exact hblocked

end

/-! ### Rejections -/

/-- If all nonterminals are productive, the obstacle with which a text is rejected is one that was
met, at the largest offset of all descriptors that were seen. -/
theorem rejection_furthest {share : Bool} {rules : List (String × List Symbol)} {g : Graph}
    (hbuild : (Rules.ofList share rules).build = .ok g)
    (hprod : ∀ {A a}, g.nonterminal? A = some a → Rules.Productive rules A)
    {start : String} {id : SlotId} (hstart : g.nonterminal? start = some id) (text : String)
    (config : Config) {o : Obstacle}
    (hparse : parse g (.ofString text) start config = .error (.rejected o)) :
    ∃ s, Problem.run ⟨g, .ofString text, id, config⟩ = (s, .ok ()) ∧ s.furthest = some o ∧
      (∀ {d : Item} {l}, s.agenda.seen[d]? = some l → d.index ≤ o.index) ∧
      ∃ d : Item, ∃ l, s.agenda.seen[d]? = some l ∧ d.index = o.index := by
  have hg := Graph.spells_of_build hbuild
  obtain ⟨hS, hends⟩ := hg.parse_ends hstart text config
  generalize parse g (.ofString text) start config = result at hparse hends
  cases hends with
  | parsed | overLimit => cases hparse
  | @rejected s h hno =>
    have ho := Failure.rejected.inj (Except.error.inj hparse)
    obtain ⟨i, hi⟩ := Setting.exists_peaks hS.toValid
    have hblocked := hi.blocked hg hS (fun hA => hprod (hg.lookup_iff.mpr hA))
      (fun hb => Graph.exists_path_end hbuild hb) hno
    obtain ⟨o', ho', hle⟩ := h.covered_of_blocked hS.toWired hblocked
    obtain rfl : o' = o := by simpa [State.obstacle, ho'] using ho
    have hs := h.sound hS
    obtain rfl : i = o'.index := Nat.le_antisymm hle (hi.le (hs.furthest ho').reaches_obstacle)
    refine ⟨s, h.run, ho', ?_, ?_⟩
    · intro d l hd
      obtain ⟨site, n, -, -, hitem⟩ := hs.item hd
      exact hi.le ⟨_, _, _, hitem⟩
    · obtain ⟨slot, site, n, hitem⟩ := hi.reaches
      obtain ⟨c, l, -, hseen, -⟩ := (h.knows_iff hS (by simp)).mpr hitem
      exact ⟨_, l, hseen, rfl⟩

end

/-- The only nonterminal of the small grammar derives the empty text. -/
lemma Rules.productive_letters {A : String} {a : SlotId}
    (h : Graph.letters.nonterminal? A = some a) : Productive letters A := by
  have hregistry : Graph.letters.registry = [("S", 0)] := by decide +kernel
  rw [Graph.nonterminal?, hregistry, List.lookup_cons] at h
  split at h
  next hA =>
    obtain rfl : A = "S" := by simpa using hA
    exact .rule (show ("S", []) ∈ letters by simp [letters]) (by simp)
  next => cases h

/-- Behind the first letter there is an obstacle, and parsing does not get any further. -/
theorem rejection_letters_furthest :
    (Rules.ofList true Rules.letters).build = .ok Graph.letters ∧
    (∀ {A a}, Graph.letters.nonterminal? A = some a → Rules.Productive Rules.letters A) ∧
    Graph.letters.nonterminal? "S" = some 0 ∧
    parse Graph.letters (.ofString "ab") "S" {} = .error (.rejected ⟨5, 1, ⟨0, 0⟩⟩) ∧
    ∃ s, Problem.run ⟨Graph.letters, .ofString "ab", 0, {}⟩ = (s, .ok ()) ∧
      s.furthest = some ⟨5, 1, ⟨0, 0⟩⟩ ∧
      (∀ {d : Item} {l}, s.agenda.seen[d]? = some l → d.index ≤ 1) ∧
      ∃ d : Item, ∃ l, s.agenda.seen[d]? = some l ∧ d.index = 1 := by
  have hparse : parse Graph.letters (.ofString "ab") "S" {} =
      .error (.rejected ⟨5, 1, ⟨0, 0⟩⟩) := by decide +kernel
  exact ⟨Graph.build_letters, Rules.productive_letters, Graph.nonterminal?_letters, hparse,
    rejection_furthest Graph.build_letters Rules.productive_letters Graph.nonterminal?_letters
      "ab" {} hparse⟩

end GeneralParser
