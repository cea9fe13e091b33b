import NetBridge.Target.CoreMl
import NetBridge.Proofs.CodeSteps

/-!
# The layers of a Core ML model

A layer of a model reads some names and puts out one (`Wire`). The rule for an operator asks for just the layers that
are known from the layer of the network (`layerWires`, `convertLayer_drawn`).
-/

namespace NetBridge.Target.CoreMl

open Code Run List

/-! ## Wires -/

structure Wire where
  inputs : List String
  output : String
  deriving DecidableEq, Repr

def positions : String → List String
  | "add_activation" => ["name", "non_linearity", "input_name", "output_name", "params"]
  | "add_unary" => ["name", "input_name", "output_name", "mode"]
  | "add_lrn" => ["name", "input_name", "output_name"]
  | _ => []

def argument (c : Call) (key : String) : Option Value :=
  (c.named.lookup key).or (((positions c.name).zip c.args).lookup key)

def texts : Value → List String
  | .text s => [s]
  | .list vs => vs.filterMap fun | .text s => some s | _ => none
  | _ => []

def layerCalls : List String :=
  ["add_activation", "add_batchnorm", "add_convolution", "add_crop", "add_elementwise", "add_flatten",
    "add_inner_product", "add_lrn", "add_padding", "add_pooling", "add_reshape", "add_scale", "add_softmax",
    "add_unary"]

def wireOf (c : Call) : Option Wire :=
  if c.name ∈ layerCalls then
    match argument c "output_name" with
    | some (.text out) =>
      some { inputs := (((argument c "input_name").or (argument c "input_names")).map texts).getD [], output := out }
    | _ => none
  else none

def wires (calls : List Call) : List Wire := calls.filterMap wireOf

def chain : List String → List String → List Wire
  | _, [] => []
  | ins, o :: os => { inputs := ins, output := o } :: chain [o] os

theorem outputs_chain (ins os : List String) : (chain ins os).map (·.output) = os := by
  induction os generalizing ins with
  | nil => rfl
  | cons o os ih => simp [chain, ih]

/-! ## The wires of a layer -/

def silent : List String := ["DataInput", "UNKNOWN", "Dropout"]

section
variable (g : Graph Layer) (out : String → String) (l : Layer)

/-- What the layers of the model for a layer of the network read from others. Relu6 takes the name that it lists; the
others take the names that the outputs of their sources have by then. -/
def reads : List String :=
  if l.op = "Relu6" then l.inputs.take 1
  else if l.op = "Add" ∨ l.op = "Concat" then (g.sourcesOf l.name).map out
  else ((g.sourcesOf l.name).take 1).map out

def generated : List String :=
  if l.op = "Relu6" then [l.name ++ "_relu", l.name ++ "_relu" ++ "_neg", l.name ++ "_relu" ++ "_clip"]
  else if l.op = "SeparableConv" then ((g.sourcesOf l.name).take 1).map fun p => out p ++ "_intermin_"
  else []

def puts : List String := if l.op ∈ silent then [] else generated g out l ++ [l.name]

def layerWires : List Wire := if l.op ∈ silent then [] else chain (reads g out l) (generated g out l ++ [l.name])

theorem generated_silent {g : Graph Layer} {out : String → String} {l : Layer} (h : l.op ∈ silent) :
    generated g out l = [] := by
  have hrelu : l.op ≠ "Relu6" := fun e => absurd (e ▸ h) (by decide)
  have hseparable : l.op ≠ "SeparableConv" := fun e => absurd (e ▸ h) (by decide)
  rw [generated, if_neg hrelu, if_neg hseparable]

theorem outputs_layerWires : (layerWires g out l).map (·.output) = puts g out l := by
  unfold layerWires puts
  split
  · rfl
  · exact outputs_chain _ _

end

variable {l : Layer} {args : List Value} {key p : String}

/-! ## Steps of a conversion -/

structure Drawn (g : Graph Layer) (out : String → String) (ws : List Wire) (st : State) : Prop where
  renamed : g.Renamed out st.scope.graph.graph
  drawn : wires st.calls = ws

variable {named : List (String × Value)} {name : String}

variable {g : Graph Layer} {out : String → String}

section
variable {β : Type} {ws : List Wire} {e : Emit β}

theorem inScope_eq_ok {st st' : State} {a : β} (h : (inScope e).outcome st = (.ok a, st')) :
    e.outcome st.scope = (.ok a, st'.scope) ∧ st'.calls = st.calls := by
  obtain ⟨t, t', ⟨⟩, h⟩ := step_cases h
  obtain ⟨_, t', ⟨⟩, h⟩ := step_cases h
  obtain ⟨he, rfl⟩ := lift_eq_ok.mp h
  exact ⟨Prod.ext he rfl, rfl⟩

theorem inScope_spec {P : Scope → Prop} {Q : β → Scope → Prop} (h : Triple P e Q) :
    Triple (fun st => P st.scope ∧ wires st.calls = ws) (inScope e) fun a st => Q a st.scope ∧ wires st.calls = ws := by
  intro st hst a st' hrun
  obtain ⟨he, hcalls⟩ := inScope_eq_ok hrun
  exact ⟨h st.scope hst.1 a st'.scope he, by rw [hcalls, hst.2]⟩

theorem inScope_drawn {p : β → Prop}
    (h : Triple (fun s => g.Renamed out s.graph.graph) e fun a s => g.Renamed out s.graph.graph ∧ p a) :
    Gets (Drawn g out ws) (inScope e) fun a => p a := by
  refine .imp (inScope_spec h) (fun st hst => ⟨hst.renamed, hst.drawn⟩) ?_
  rintro a st ⟨⟨hr, hp⟩, hws⟩
  exact ⟨⟨hr, hws⟩, hp⟩

theorem call_drawn {w : Wire} (h : wireOf { name := name, args := args, named := named } = some w) :
    Triple (Drawn g out ws) (call name named args) fun _ => Drawn g out (ws ++ [w]) := by
  refine .modify fun st hst => ⟨hst.renamed, ?_⟩
  rw [← hst.drawn]
  simp [wires, h]

end

/-! ## The name that a layer reads -/

section
variable {v : Vertex Layer}

theorem source_spec : Triple (fun s => g.Renamed out s.graph.graph) (source v) fun x s =>
    g.Renamed out s.graph.graph ∧ ∃ p, (g.sourcesOf v.name).head? = some p ∧ x = out p := by
  refine .each fun s hr => .bind_of parent_known fun w hw => .pure fun t ht => ⟨ht, ?_⟩
  obtain ⟨x, p, hx, hp, hw⟩ := hw
  obtain ⟨u, hu, rfl⟩ := hr.of_find? hx
  obtain ⟨y, -, rfl⟩ := hr.of_find? hw
  exact ⟨p, by rwa [Graph.sourcesOf_of_find? hu], rfl⟩

theorem vertex_found (m : String) : Triple (fun s => g.Renamed out s.graph.graph) (vertex m) fun w s =>
    g.Renamed out s.graph.graph ∧ ∃ u, g.vertices.find? m = some u ∧ w = { u with outputName := out m } :=
  .each fun _ hr => vertex_known.post fun _ _ ht => ⟨ht.1, hr.of_find? ht.2⟩

theorem firstEdge_spec {β : Type} {f : Vertex Layer → Emit β} {Q : β → Scope → Prop}
    (hsources : v.sources = g.sourcesOf v.name)
    (hf : ∀ p w, (g.sourcesOf v.name).head? = some p → w.outputName = out p →
      Triple (fun s => g.Renamed out s.graph.graph) (f w) Q) :
    Triple (fun s => g.Renamed out s.graph.graph) (do
      let w ← vertex (← orFault Fault.position v.sources.head?)
      f w) Q := by
  refine .bind_of (.lift fun p hp t ht => ⟨ht, orFault_eq_ok.mp hp⟩)
    fun p hp => .bind_of (vertex_found p) fun w hw => ?_
  obtain ⟨u, -, rfl⟩ := hw
  exact hf p _ (hsources ▸ hp) rfl

end

/-! ## Rules -/

section
variable (v : Vertex Layer)

instance (name : String) : Looks (weightOf v name) := by unfold weightOf; infer_instance

instance (has : Value) : Looks (biasOf v has) := by unfold biasOf; infer_instance

instance : Looks (stridesOf v) := by unfold stridesOf; infer_instance

instance : Looks (padsOf v) := by
  have hlisted : Looks (do
      match ← v.item.get "pads" (.ints [0, 0, 0, 0]) with
      | .list ps => if ps.length = 4 then return some ps else throw Fault.value
      | _ => return none : Emit (Option (List Value))) := by
    refine .step fun pads => ?_
    split <;> infer_instance
  refine .step fun mode => ?_
  split <;> infer_instance

instance : Looks (knownSizes v) := by unfold knownSizes; infer_instance

end

def Draws (g : Graph Layer) (out : String → String) (l : Layer) (x : Convert Unit) : Prop :=
  ∀ ws, Triple (Drawn g out ws) x fun _ => Drawn g out (ws ++ layerWires g out l)

def plain (l : Layer) : Bool := !(silent ++ ["Relu6", "SeparableConv", "Add", "Concat"]).contains l.op

structure AtTurn (g : Graph Layer) (v : Vertex Layer) : Prop where
  name : v.name = v.item.name
  output : v.outputName = v.item.name
  sources : v.sources = g.sourcesOf v.item.name

structure Names (g : Graph Layer) (out : String → String) (l : Layer) (named : List (String × Value)) : Prop where
  input : ∃ p, (g.sourcesOf l.name).head? = some p ∧ named.lookup "input_name" = some (.text (out p))
  output : named.lookup "output_name" = some (.text l.name)

def Gives (g : Graph Layer) (out : String → String) (l : Layer) (x : Emit (List (String × Value))) : Prop :=
  Triple (fun s => g.Renamed out s.graph.graph) x fun named s => g.Renamed out s.graph.graph ∧ Names g out l named

def GivesTwo (g : Graph Layer) (out : String → String) (l : Layer)
    (x : Emit (List (String × Value) × List (String × Value))) : Prop :=
  Triple (fun s => g.Renamed out s.graph.graph) x fun pair s => g.Renamed out s.graph.graph ∧
    ∃ p, (g.sourcesOf l.name).head? = some p ∧
      wireOf { name := "add_convolution", named := pair.1 } =
        some { inputs := [out p], output := out p ++ "_intermin_" } ∧
      wireOf { name := "add_convolution", named := pair.2 } =
        some { inputs := [out p ++ "_intermin_"], output := l.name }

/-- The output name of a layer after its turn: that of its first source if it is dropped, else its own. -/
def After (g : Graph Layer) (out : String → String) (l : Layer) (q : String) : Prop :=
  if l.op = "Dropout" then ∃ p, (g.sourcesOf l.name).head? = some p ∧ q = out p else q = l.name

section
variable {v : Vertex Layer}

theorem lookup_zip_of_not_mem {ks : List String} (h : key ∉ ks) (vs : List Value) : (ks.zip vs).lookup key = none := by
  rw [lookup_eq_none_iff]
  rintro ⟨k, x⟩ hx
  have hk : k ∈ ks := (of_mem_zip hx).1
  exact bne_iff_ne.mpr fun e : key = k => h (e ▸ hk)

theorem lookup_padArgs (h : key ∉ ["padding_top", "padding_left", "padding_bottom", "padding_right"])
    (pads : Option (List Value)) : (padArgs pads).lookup key = none :=
  lookup_zip_of_not_mem h _

theorem layerWires_plain (hl : plain l = true) (hp : (g.sourcesOf l.name).head? = some p) :
    layerWires g out l = [{ inputs := [out p], output := l.name }] := by
  simp only [plain, silent, cons_append, nil_append, Bool.not_eq_true', contains_eq_mem,
    decide_eq_false_iff_not, mem_cons, not_or] at hl
  obtain ⟨hdata, hunknown, hdropout, hrelu, hseparable, hadd, hconcat⟩ := hl
  simp [layerWires, silent, reads, generated, chain, take_one, hp, hdata, hunknown, hdropout, hrelu, hseparable,
    hadd, hconcat]

theorem draws_one (hl : plain v.item = true) (hp : (g.sourcesOf v.item.name).head? = some p)
    (h : wireOf { name := name, args := args, named := named } =
      some { inputs := [out p], output := v.item.name }) : Draws g out v.item (call name named args) := by
  intro ws
  rw [layerWires_plain hl hp]
  exact call_drawn h

theorem draws_named {step : Emit (List (String × Value))} (hcall : name ∈ layerCalls)
    (hl : plain v.item = true) (h : Gives g out v.item step) : Draws g out v.item (do call name (← inScope step)) := by
  intro ws
  refine .bind_of (inScope_drawn h) fun named hnamed => ?_
  obtain ⟨⟨p, hp, hin⟩, hout⟩ := hnamed
  refine draws_one hl hp ?_ ws
  simp [wireOf, hcall, argument, hin, hout, texts]

/-- A rule without calls, for a layer without layers in the model. -/
theorem draws_nothing {x : Convert Unit} (hop : l.op ∈ silent) (h : ∀ ws, Keeps (Drawn g out ws) x) :
    Draws g out l x := by
  intro ws
  rw [layerWires, if_pos hop, append_nil]
  exact h ws

theorem say_drawn (line : String) (ws : List Wire) : Keeps (Drawn g out ws) (inScope (say line)) := by
  refine (inScope_drawn (p := fun _ => True) ?_).post fun _ _ h => h.1
  exact .modify fun _ hs => ⟨hs, trivial⟩

theorem relu6_draws (hop : v.item.op = "Relu6") : Draws g out v.item (relu6 v) := by
  intro ws
  refine .bind_of (.lift fun i hi st hst => ⟨hst, orFault_eq_ok.mp hi⟩) fun i hi => ?_
  have htake : v.item.inputs.take 1 = [i] := by
    rw [take_one, hi]
    rfl
  extract_lets output positive negated clipped negation
  have hwires : layerWires g out v.item = [{ inputs := [i], output := positive },
      { inputs := [positive], output := negated }, { inputs := [negated], output := clipped },
      { inputs := [clipped], output := output }] := by
    simp [layerWires, silent, reads, generated, chain, hop, htake, output, positive, negated, clipped]
  rw [hwires]
  refine .bind (call_drawn (w := { inputs := [i], output := positive }) ?_) fun _ => ?_
  · simp [wireOf, layerCalls, argument, positions, texts, lookup_cons]
  refine .bind (call_drawn (w := { inputs := [positive], output := negated }) ?_) fun _ => ?_
  · simp [wireOf, layerCalls, argument, positions, texts, lookup_cons]
  refine .bind (call_drawn (w := { inputs := [negated], output := clipped }) ?_) fun _ => ?_
  · simp [wireOf, layerCalls, argument, positions, texts, lookup_cons]
  refine (call_drawn (w := { inputs := [clipped], output := output }) ?_).post fun _ st hst => ?_
  · simp [wireOf, layerCalls, argument, positions, texts, lookup_cons]
  · simpa using hst

variable (ht : AtTurn g v)
include ht

theorem AtTurn.names {x : String} (hx : ∃ p, (g.sourcesOf v.name).head? = some p ∧ x = out p)
    (hin : named.lookup "input_name" = some (.text x)) (hout : named.lookup "output_name" = some (.text v.item.name)) :
    Names g out v.item named := by
  obtain ⟨p, hp, rfl⟩ := hx
  exact ⟨⟨p, ht.name ▸ hp, hin⟩, hout⟩

theorem AtTurn.edges : v.sources = g.sourcesOf v.name := by
  rw [ht.name, ht.sources]

theorem AtTurn.edgeSource_spec : Triple (fun s => g.Renamed out s.graph.graph) (edgeSource v) fun x s =>
    g.Renamed out s.graph.graph ∧ ∃ p, (g.sourcesOf v.name).head? = some p ∧ x = out p :=
  firstEdge_spec ht.edges fun p _ hp hw => .pure fun _ hs => ⟨hs, p, hp, hw⟩

variable (hl : plain v.item = true)
include hl

theorem convolution_draws : Draws g out v.item (convolution v) := by
  refine draws_named (by decide) hl ?_
  refine .look fun hasBias => .look fun shape => .look fun filters => .look fun w => ?_
  refine .look fun t => .look fun sizes => ?_
  refine .look fun b => .look fun strides => ?_
  refine .look fun dilations => .look fun groups => .look fun pads => ?_
  refine .bind_of source_spec fun x hx => .pure fun s hs => ⟨hs, ht.names hx ?_ ?_⟩
  · simp [lookup_cons]
  · simp [lookup_append, lookup_cons, lookup_padArgs, ht.output]

theorem depthwise_draws : Draws g out v.item (depthwise v) := by
  refine draws_named (by decide) hl ?_
  refine .bind_of source_spec fun x hx => .look fun hasBias => .look fun shape => ?_
  refine .look fun multiplier => .look fun w => .look fun t => .look fun sizes => ?_
  refine .look fun k => .look fun w => .look fun b => .look fun dilations => ?_
  refine .look fun pads => .look fun strides => ?_
  refine .pure fun s hs => ⟨hs, ht.names hx ?_ ?_⟩
  · simp [lookup_append, lookup_cons, lookup_padArgs]
  · simp [lookup_append, lookup_cons, lookup_padArgs, ht.output]

theorem pooling_draws : Draws g out v.item (pooling v) := by
  refine draws_named (by decide) hl ?_
  refine .bind_of ht.edgeSource_spec fun x hx => .look fun kind => ?_
  extract_lets rest
  have hrest (kind : String) : Gives g out v.item (rest kind) := by
    refine .look fun isGlobal => .look fun strides => .look fun rank => ?_
    extract_lets sized
    have hsized : Gives g out v.item (sized ()) := by
      refine .look fun kernel => .look fun pair => ?_
      refine .look fun pair => ?_
      dsimp only
      split
      all_goals
        refine .look fun pads => .pure fun s hs => ⟨hs, ht.names hx ?_ ?_⟩
        · simp [lookup_append, lookup_cons, lookup_padArgs]
        · simp [lookup_append, lookup_cons, lookup_padArgs, ht.name]
    split
    · exact .look fun _ => hsized
    · exact hsized
  split
  · exact .look hrest
  · exact .look hrest
  · exact .look hrest

theorem scale_draws : Draws g out v.item (scale v) := by
  refine draws_named (by decide) hl ?_
  refine .bind_of ht.edgeSource_spec fun x hx => ?_
  iterate 7 refine .look fun _ => ?_
  refine .pure fun s hs => ⟨hs, ht.names hx ?_ ?_⟩
  · simp [lookup_cons]
  · simp [lookup_cons, ht.name]

theorem dense_draws : Draws g out v.item (dense v) := by
  refine draws_named (by decide) hl ?_
  refine .bind_of ht.edgeSource_spec fun x hx => .look fun hasBias => .look fun w => ?_
  refine .look fun t => .look fun w => ?_
  extract_lets rest
  have hrest (b : Value) : Gives g out v.item (rest b) := by
    unfold rest
    split
    · refine .pure fun s hs => ⟨hs, ht.names hx ?_ ?_⟩
      · simp [lookup_cons]
      · simp [lookup_cons, ht.name]
    · exact .throw
  split
  · exact .look fun b => .look fun t => .look fun t' => .look hrest
  · exact .look hrest

theorem reshape_draws : Draws g out v.item (reshape v) := by
  refine draws_named (by decide) hl ?_
  refine firstEdge_spec ht.edges fun p before hp hbefore => .look fun old => .look fun new => ?_
  refine .pure fun s hs => ⟨hs, ht.names ⟨p, hp, rfl⟩ ?_ ?_⟩
  · simp [lookup_cons, hbefore]
  · simp [lookup_cons, ht.output]

theorem batchNorm_draws : Draws g out v.item (batchNorm v) := by
  refine draws_named (by decide) hl ?_
  refine .bind_of source_spec fun x hx => .look fun axis => .look fun shapes => ?_
  refine .look fun sizes => ?_
  extract_lets rest
  have hrest (dims : List Int) : Gives g out v.item (rest dims) := by
    iterate 6 refine .look fun _ => ?_
    refine .pure fun s hs => ⟨hs, ht.names hx ?_ ?_⟩
    · simp [lookup_cons]
    · simp [lookup_cons, ht.output]
  split
  · exact .look hrest
  · exact .look hrest

theorem crop_draws : Draws g out v.item (crop v) := by
  intro ws
  refine .bind_of (inScope_drawn source_spec) fun x hx => .bind keeps_lift fun border => ?_
  refine .bind keeps_lift fun amounts => ?_
  obtain ⟨p, hp, rfl⟩ := hx
  refine draws_one hl (ht.name ▸ hp) ?_ ws
  simp [wireOf, layerCalls, argument, texts, lookup_append, lookup_cons, lookup_zip_of_not_mem,
    ht.output]

theorem pad_draws : Draws g out v.item (pad v) := by
  intro ws
  refine .bind_of (inScope_drawn source_spec) fun x hx => .bind keeps_lift fun pads => ?_
  refine .bind keeps_lift fun amounts => .bind keeps_lift fun mode => ?_
  obtain ⟨p, hp, rfl⟩ := hx
  refine draws_one hl (ht.name ▸ hp) ?_ ws
  simp [wireOf, layerCalls, argument, texts, lookup_append, lookup_cons, lookup_zip_of_not_mem,
    ht.output]

theorem flatten_draws : Draws g out v.item (flatten v) := by
  intro ws
  refine .bind_of (inScope_drawn ht.edgeSource_spec) fun x hx => ?_
  obtain ⟨p, hp, rfl⟩ := hx
  refine draws_one hl (ht.name ▸ hp) ?_ ws
  simp [wireOf, layerCalls, argument, texts, lookup_cons, ht.name]

theorem softmax_draws : Draws g out v.item (softmax v) := by
  intro ws
  refine .bind_of (inScope_drawn ht.edgeSource_spec) fun x hx => ?_
  obtain ⟨p, hp, rfl⟩ := hx
  refine draws_one hl (ht.name ▸ hp) ?_ ws
  simp [wireOf, layerCalls, argument, texts, lookup_cons, ht.name]

theorem activation_draws (kind : String) (names : List String) : Draws g out v.item (activation kind names v) := by
  intro ws
  refine .bind_of (inScope_drawn (p := fun _ => True) ?_) fun params _ => ?_
  · exact keeps_looking.post fun _ _ h => ⟨h, trivial⟩
  refine .bind_of (inScope_drawn source_spec) fun x hx => ?_
  obtain ⟨p, hp, rfl⟩ := hx
  refine draws_one hl (ht.name ▸ hp) ?_ ws
  simp [wireOf, layerCalls, argument, texts, lookup_cons, ht.output]

theorem localNorm_draws : Draws g out v.item (localNorm v) := by
  intro ws
  refine .bind_of (inScope_drawn source_spec) fun x hx => .bind keeps_lift fun size => ?_
  refine .bind keeps_lift fun alpha => .bind keeps_lift fun beta => .bind keeps_lift fun k => ?_
  refine .bind keeps_lift fun radius => .bind keeps_lift fun alpha' => ?_
  obtain ⟨p, hp, rfl⟩ := hx
  refine draws_one hl (ht.name ▸ hp) ?_ ws
  simp [wireOf, layerCalls, argument, positions, texts, lookup_cons, ht.output]

end

section
variable {g : Graph Layer} {out : String → String} {v : Vertex Layer} (ht : AtTurn g v)
include ht

theorem merge_draws (mode : String) (hop : v.item.op = "Add" ∨ v.item.op = "Concat") :
    Draws g out v.item (merge mode v) := by
  intro ws
  have hnames : Triple (fun s => g.Renamed out s.graph.graph)
      (v.sources.mapM fun n => do return (← vertex n).outputName)
      fun xs s => g.Renamed out s.graph.graph ∧ xs = v.sources.map out := by
    refine (Triple.mapM (I := fun done xs s => g.Renamed out s.graph.graph ∧ xs = done.map out) ?_).imp
      (fun _ h => ⟨h, rfl⟩) fun _ _ h => h
    rintro done n todo xs - s ⟨hr, rfl⟩
    refine (Triple.bind_of (vertex_found n) fun w hw => .pure fun t ht => ⟨ht, ?_⟩) s hr
    obtain ⟨u, -, rfl⟩ := hw
    rw [map_append, map_singleton]
  refine .bind_of (inScope_drawn hnames) fun xs hxs => ?_
  have hwires : layerWires g out v.item = [{ inputs := xs, output := v.item.name }] := by
    rw [hxs, ht.sources]
    rcases hop with hop | hop
    all_goals simp [layerWires, silent, reads, generated, chain, hop]
  rw [hwires]
  refine call_drawn ?_
  simp [wireOf, layerCalls, argument, texts, lookup_cons, ht.name]

theorem separable_draws (hop : v.item.op = "SeparableConv") : Draws g out v.item (separable v) := by
  have hwires {p : String} (hp : (g.sourcesOf v.item.name).head? = some p) : layerWires g out v.item =
      [{ inputs := [out p], output := out p ++ "_intermin_" },
        { inputs := [out p ++ "_intermin_"], output := v.item.name }] := by
    simp [layerWires, silent, reads, generated, chain, take_one, hp, hop]
  intro ws
  refine .bind_of (inScope_drawn (?_ : GivesTwo g out v.item _)) ?_
  · refine .bind_of source_spec fun x hx => .look fun strides => ?_
    refine .look fun w₀ => .look fun w₁ => .look fun pad => ?_
    extract_lets between rest
    have hrest (mode : String) : GivesTwo g out v.item (rest mode) := by
      iterate 4 refine .look fun _ => ?_
      extract_lets shared sized
      have hsized (dims : List Int) : GivesTwo g out v.item (sized dims) := by
        refine .look fun filters => .look fun t => .look fun sizes => ?_
        obtain ⟨p, hp, rfl⟩ := hx
        refine .look fun w₀ => .pure fun s hs => ⟨hs, p, ht.name ▸ hp, ?_, ?_⟩
        · simp [wireOf, layerCalls, argument, texts, lookup_cons, between]
        · simp [wireOf, layerCalls, argument, texts, lookup_cons, between, ht.output]
      split
      · exact .look hsized
      · exact .look hsized
    split
    · exact .look hrest
    · exact .look hrest
  · rintro ⟨first, second⟩ ⟨p, hp, hfirst, hsecond⟩
    rw [hwires hp]
    refine .bind (call_drawn hfirst) fun _ => (call_drawn hsecond).post fun _ st hst => ?_
    simpa using hst

theorem rule_draws {r : Vertex Layer → Convert Unit} (h : rule? v.item.op = some r) (hd : v.item.op ≠ "Dropout") :
    Draws g out v.item (r v) := by
  have hrefused {f : Fault} : Draws g out v.item (refused f v) := fun _ => .throw
  unfold rule? at h
  split at h
  all_goals cases h
  all_goals rename_i hop
  all_goals first
    | exact absurd hop hd
    | with_reducible exact hrefused
    | with_reducible exact relu6_draws hop
    | with_reducible exact separable_draws ht hop
    | with_reducible exact merge_draws ht _ (.inl hop)
    | with_reducible exact merge_draws ht _ (.inr hop)
    | exact draws_nothing (by rw [hop]; decide) (say_drawn v.name)
    | exact draws_nothing (by rw [hop]; decide) fun _ => keeps_pure
    | with_reducible refine convolution_draws ht ?_
    | with_reducible refine depthwise_draws ht ?_
    | with_reducible refine pooling_draws ht ?_
    | with_reducible refine scale_draws ht ?_
    | with_reducible refine crop_draws ht ?_
    | with_reducible refine dense_draws ht ?_
    | with_reducible refine flatten_draws ht ?_
    | with_reducible refine reshape_draws ht ?_
    | with_reducible refine softmax_draws ht ?_
    | with_reducible refine batchNorm_draws ht ?_
    | with_reducible refine pad_draws ht ?_
    | with_reducible refine localNorm_draws ht ?_
    | with_reducible refine activation_draws ht ?_ _ _
  all_goals
    rw [plain, hop]
    decide

theorem convertLayer_drawn (hfresh : out v.item.name = v.item.name) (ws : List Wire) :
    Triple (Drawn g out ws) (convertLayer v) fun _ st => ∃ q, After g out v.item q ∧
      Drawn g (Graph.renameAt out v.item.name q) (ws ++ layerWires g out v.item) st := by
  refine .bind (say_drawn _ ws) fun _ => ?_
  cases hrule : rule? v.item.op with
  | none => exact .bind (say_drawn _ ws) fun _ => .bind (say_drawn _ ws) fun _ => .throw
  | some r =>
    by_cases hd : v.item.op = "Dropout"
    · obtain rfl : (fun v => inScope (skip v)) = r := by
        rw [hd] at hrule
        exact Option.some.inj hrule
      intro st hst a st' h
      obtain ⟨he, hcalls⟩ := inScope_eq_ok h
      have hskip : Triple (· = st.scope) (skip v) fun _ s => ∃ p, (g.sourcesOf v.item.name).head? = some p ∧
          g.Renamed (Graph.renameAt out v.name (out p)) s.graph.graph := by
        refine .bind_of parent_known fun w hw => .modify fun s hs => ?_
        obtain ⟨x, p, hx, hp, hw⟩ := hw
        obtain ⟨u, hu, rfl⟩ := hst.renamed.of_find? hx
        obtain ⟨y, -, rfl⟩ := hst.renamed.of_find? hw
        refine ⟨p, by rwa [← ht.name, Graph.sourcesOf_of_find? hu], ?_⟩
        rw [hs]
        exact hst.renamed.modify v.name _
      obtain ⟨p, hp, hr⟩ := hskip st.scope rfl a st'.scope he
      refine ⟨out p, ?_, ht.name ▸ hr, ?_⟩
      · rw [After, if_pos hd]
        exact ⟨p, hp, rfl⟩
      · rw [hcalls, hst.drawn, layerWires, if_pos (by rw [hd]; decide), append_nil]
    · refine (rule_draws ht hrule hd ws).post fun _ st hst => ⟨v.item.name, ?_, ?_⟩
      · rw [After, if_neg hd]
      · have hsame := Graph.renameAt_same out v.item.name
        rw [hfresh] at hsame
        rwa [hsame]

end

end NetBridge.Target.CoreMl
