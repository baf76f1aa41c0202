import Mathlib.Data.List.Nodup
import Mathlib.Data.List.Pairwise
import StageMonitor.Proofs.Dashboard.Building
import StageMonitor.Proofs.Query

/-! # Queries are told apart

The queries of a stage are eight templates around its id. What stands before the first quote is part
of the template, whatever the id is, and no two templates agree in it. So a query tells its
template, and with it the id.
-/

namespace StageMonitor

namespace Query

/-- A text around a quoted id. -/
structure Template where
  opening : List Char
  closing : List Char
  no_quote : '"' ∉ opening

namespace Template

def fill (t : Template) (id : String) : String :=
  String.ofList (t.opening ++ '"' :: id.toList ++ '"' :: t.closing)

theorem opening_eq_of_fill_eq {t t' : Template} {id id' : String} (h : t.fill id = t'.fill id') :
    t.opening = t'.opening := by
  have hs := String.ofList_inj.mp h
  rw [List.append_assoc, List.append_assoc] at hs
  exact (eq_of_append_quote t.no_quote t'.no_quote hs).1

theorem id_eq_of_fill_eq {t : Template} {id id' : String} (h : t.fill id = t.fill id') :
    id = id' := by
  have hs := String.ofList_inj.mp h
  rw [List.append_assoc, List.append_assoc, List.append_cancel_left_eq] at hs
  exact String.toList_inj.mp (List.append_cancel_right (List.cons.inj hs).2)

/-- The metric and its label stand between the calls that open around them and the id. -/
def ofName (opening name closing : List Char) (ho : opening.all isLiteral = true)
    (hn : name.all isIdChar = true) : Template where
  opening := opening ++ (name ++ "\x7bstage=".toList)
  closing := closing
  no_quote := by
    have hs : "\x7bstage=".toList.all isLiteral = true := by decide
    have ha : (opening ++ (name ++ "\x7bstage=".toList)).all isLiteral = true := by
      rw [List.all_append, List.all_append, ho, all_isLiteral_word hn, hs]
      rfl
    exact (not_mem_of_all_isLiteral ha).1

def quantile (q : Quantile) {metric : Histogram} (hm : metric ∈ Histogram.all) : Template :=
  ofName (quantileOpening q) metric.bucketName.toList quantileClosing (by cases q <;> decide)
    (Histogram.bucketName_word hm)

def increase {metric : Counter} (hm : metric ∈ Counter.all) : Template :=
  ofName increaseOpening metric.name.toList increaseClosing (by decide) (Counter.name_word hm)

theorem fill_quantile (q : Quantile) {metric : Histogram} (hm : metric ∈ Histogram.all)
    (id : String) : (quantile q hm).fill id = Query.quantile q metric id window := by
  rw [← String.toList_inj, toList_quantile, fill, String.toList_ofList]
  rfl

theorem fill_increase {metric : Counter} (hm : metric ∈ Counter.all) (id : String) :
    (increase hm).fill id = Query.increase metric id window := by
  rw [← String.toList_inj, toList_increase, fill, String.toList_ofList]
  rfl

end Template

end Query

open Query

namespace Family

def quantileTemplates {metric : Histogram} (hm : metric ∈ Histogram.all) : List Template :=
  Quantile.charted.map fun q => .quantile q hm

/-- The templates of the queries of a panel, in their order. -/
def templates : Family → List Template
  | latency =>
    @quantileTemplates .stageProcessing (by decide) ++ @quantileTemplates .merge (by decide)
  | payload => @quantileTemplates .clientPayload (by decide)
  | issues =>
    [@Template.increase .mergeAlerts (by decide), @Template.increase .clientAnomalies (by decide)]

theorem map_expression_quantileSeries (name : String) {metric : Histogram}
    (hm : metric ∈ Histogram.all) (stage : Stage) :
    (quantileSeries name metric stage).map Series.expression =
      (quantileTemplates hm).map (·.fill stage.id) := by
  unfold quantileSeries quantileTemplates
  rw [List.map_map, List.map_map]
  exact List.map_congr_left fun q _ => (Template.fill_quantile q hm stage.id).symm

theorem map_expression_series (family : Family) (stage : Stage) :
    (family.series stage).map Series.expression = family.templates.map (·.fill stage.id) := by
  cases family with
  | latency =>
    rw [series, templates, List.map_append, List.map_append]
    exact congrArg₂ (· ++ ·) (map_expression_quantileSeries _ _ stage)
      (map_expression_quantileSeries _ _ stage)
  | payload => exact map_expression_quantileSeries _ _ stage
  | issues => simp only [series, templates, List.map_cons, Template.fill_increase]; rfl

/-- The eight templates of a stage. -/
def allTemplates : List Template :=
  all.flatMap templates

theorem mem_all (family : Family) : family ∈ all := by
  cases family <;> decide

theorem nodup_openings : (allTemplates.map Template.opening).Nodup := by
  decide

theorem mem_allTemplates {family : Family} {t : Template} (h : t ∈ family.templates) :
    t ∈ allTemplates :=
  List.mem_flatMap.mpr ⟨family, family.mem_all, h⟩

/-- A query tells its template and the id inside, whatever the id is. -/
theorem eq_of_fill_eq {t t' : Template} {id id' : String} (ht : t ∈ allTemplates)
    (ht' : t' ∈ allTemplates) (h : t.fill id = t'.fill id') : t = t' ∧ id = id' := by
  obtain rfl : t = t' :=
    List.inj_on_of_nodup_map nodup_openings ht ht' (Template.opening_eq_of_fill_eq h)
  exact ⟨rfl, Template.id_eq_of_fill_eq h⟩

/-- A template stands at one place only. -/
theorem place_unique {family family' : Family} {j j' : Nat} {t : Template}
    (h : family.templates[j]? = some t) (h' : family'.templates[j']? = some t) :
    family = family' ∧ j = j' := by
  obtain ⟨hn, hd⟩ := List.nodup_flatMap.mp (List.Nodup.of_map _ nodup_openings)
  have hf : family = family' := by
    by_contra hne
    have hs : Std.Symm (Function.onFun List.Disjoint templates) := ⟨fun _ _ => List.disjoint_symm⟩
    exact hd.forall family.mem_all family'.mem_all hne (List.mem_of_getElem? h)
      (List.mem_of_getElem? h')
  subst hf
  have hj : j < family.templates.length := (List.getElem?_eq_some_iff.mp h).1
  exact ⟨rfl, (List.getElem?_inj hj (hn family family.mem_all)).mp (h.trans h'.symm)⟩

/-- The query at a place of a panel. -/
theorem exists_template_of_target {family : Family} {row id j : Nat} {stage : Stage} {panel : Panel}
    {target : Target} (hp : family.panel row stage id = .ok panel)
    (ht : panel.targets[j]? = some target) :
    ∃ t, family.templates[j]? = some t ∧ target.expression = t.fill stage.id := by
  have htargets : panel.targets = targetsAt 0 (family.series stage) := by
    rw [Family.panel, targetsOf_series] at hp
    exact (Panel.create_eq_ok hp).2.2.1
  have he : (panel.targets.map Target.expression)[j]? = some target.expression := by
    rw [List.getElem?_map, ht, Option.map_some]
  rw [htargets, map_expression_targetsAt, map_expression_series, List.getElem?_map,
    Option.map_eq_some_iff] at he
  obtain ⟨t, ht, he⟩ := he
  exact ⟨t, ht, he.symm⟩

end Family

namespace Dashboard

/-- All expressions of a dashboard, panel by panel. -/
def expressions (dashboard : Dashboard) : List String :=
  dashboard.panels.flatMap fun panel => panel.targets.map Target.expression

end Dashboard

theorem expressions_band (row : Nat) (stage : Stage) :
    (band row stage).flatMap (fun panel => panel.targets.map Target.expression) =
      Family.allTemplates.map (·.fill stage.id) := by
  simp only [band, Family.allTemplates, List.flatMap_map, List.map_flatMap, Family.chart,
    map_expression_targetsAt, Family.map_expression_series]

theorem expressions_bands (row : Nat) (stages : List Stage) :
    (bands row stages).flatMap (fun panel => panel.targets.map Target.expression) =
      stages.flatMap fun stage => Family.allTemplates.map (·.fill stage.id) := by
  induction stages generalizing row with
  | nil => rfl
  | cons stage stages ih =>
    rw [bands, List.flatMap_append, expressions_band, ih, List.flatMap_cons]

theorem nodup_expressions {stages : List Stage} (h : (stages.map Stage.id).Nodup) :
    (stages.flatMap fun stage => Family.allTemplates.map (·.fill stage.id)).Nodup := by
  rw [List.nodup_flatMap]
  constructor
  · intro stage _
    refine (List.Nodup.of_map _ Family.nodup_openings).map_on fun t ht t' ht' heq => ?_
    exact (Family.eq_of_fill_eq ht ht' heq).1
  · refine (List.pairwise_map.mp h).imp fun hne expression he he' => ?_
    obtain ⟨t, ht, rfl⟩ := List.mem_map.mp he
    obtain ⟨t', ht', heq⟩ := List.mem_map.mp he'
    exact hne (Family.eq_of_fill_eq ht ht' heq.symm).2

/-- A target at a place of the panel that a stage has for a family. -/
def Dashboard.Charts (dashboard : Dashboard) (stages : List Stage) (stage : Stage) (family : Family)
    (position : Nat) (target : Target) : Prop :=
  ∃ row panel, stages[row]? = some stage ∧ panel ∈ dashboard.panels ∧
    family.panel row stage panel.id = .ok panel ∧ panel.targets[position]? = some target

/-- Every target of a dashboard has a place, and the queries at two places are the same only if the
family, the position in the panel and the id are. So different ids have different queries, and each
id has eight. -/
theorem queries_distinct (stages : List Stage) :
    ∃ dashboard : Dashboard, Dashboard.ofStages stages = .ok dashboard ∧
      (∀ panel ∈ dashboard.panels, ∀ target ∈ panel.targets, ∃ stage family position,
        dashboard.Charts stages stage family position target) ∧
      (∀ stage family position target stage' family' position' target',
        dashboard.Charts stages stage family position target →
        dashboard.Charts stages stage' family' position' target' →
        (target.expression = target'.expression ↔
          family = family' ∧ position = position' ∧ stage.id = stage'.id)) ∧
      dashboard.expressions.length = 8 * stages.length ∧
      ((stages.map Stage.id).Nodup → dashboard.expressions.Nodup) := by
  refine ⟨.ofBands stages, Dashboard.ofStages_eq_ok stages, ?_, ?_, ?_, ?_⟩
  · intro panel hp target ht
    obtain ⟨i, hi⟩ := List.mem_iff_getElem?.mp hp
    obtain ⟨position, hj⟩ := List.mem_iff_getElem?.mp ht
    obtain ⟨stage, family, hs, -, rfl⟩ := exists_chart_of_getElem? hi
    rw [Nat.zero_add] at hp hj
    exact ⟨stage, family, position, _, _, hs, hp, family.panel_eq_ok _ stage, hj⟩
  · rintro stage family j target stage' family' j' target'
      ⟨_, _, -, -, hp, ht⟩ ⟨_, _, -, -, hp', ht'⟩
    obtain ⟨t, hj, he⟩ := Family.exists_template_of_target hp ht
    obtain ⟨t', hj', he'⟩ := Family.exists_template_of_target hp' ht'
    rw [he, he']
    constructor
    · intro h
      obtain ⟨rfl, hid⟩ := Family.eq_of_fill_eq
        (Family.mem_allTemplates (List.mem_of_getElem? hj))
        (Family.mem_allTemplates (List.mem_of_getElem? hj')) h
      obtain ⟨hf, hpos⟩ := Family.place_unique hj hj'
      exact ⟨hf, hpos, hid⟩
    · rintro ⟨rfl, rfl, hid⟩
      cases hj.symm.trans hj'
      rw [hid]
  · have height : Family.allTemplates.length = 8 := rfl
    simp [Dashboard.expressions, expressions_bands, List.length_flatMap, height, Nat.mul_comm]
  · intro h
    rw [Dashboard.expressions, Dashboard.panels_ofBands, expressions_bands]
    exact nodup_expressions h

/-- An id that imitates the end of a query and the start of another makes no query like those of the
other stage. Two stages with one id have the same queries. -/
theorem queries_distinct_crafted_ids :
    (∃ dashboard : Dashboard,
      Dashboard.ofStages [⟨"a", ""⟩, ⟨"a\"\x7d[30m]))) or sum(increase(", ""⟩] = .ok dashboard ∧
        dashboard.expressions.length = 16 ∧ dashboard.expressions.Nodup) ∧
    ∃ (dashboard : Dashboard) (target target' : Target),
      Dashboard.ofStages [⟨"a", "A"⟩, ⟨"a", "B"⟩] = .ok dashboard ∧
        dashboard.Charts [⟨"a", "A"⟩, ⟨"a", "B"⟩] ⟨"a", "A"⟩ .issues 1 target ∧
        dashboard.Charts [⟨"a", "A"⟩, ⟨"a", "B"⟩] ⟨"a", "B"⟩ .issues 1 target' ∧
        target.expression = target'.expression := by
  constructor
  · obtain ⟨dashboard, hd, -, -, hlength, hnodup⟩ :=
      queries_distinct [⟨"a", ""⟩, ⟨"a\"\x7d[30m]))) or sum(increase(", ""⟩]
    exact ⟨dashboard, hd, hlength, hnodup (by decide)⟩
  · obtain ⟨dashboard, hd, -, heq, -⟩ := queries_distinct [⟨"a", "A"⟩, ⟨"a", "B"⟩]
    have hb := hd
    rw [Dashboard.ofStages_eq_ok] at hb
    cases hb
    have hfirst : (Dashboard.ofBands [⟨"a", "A"⟩, ⟨"a", "B"⟩]).Charts [⟨"a", "A"⟩, ⟨"a", "B"⟩]
        ⟨"a", "A"⟩ .issues 1 _ :=
      ⟨0, Family.issues.chart 0 ⟨"a", "A"⟩, rfl, @List.mem_of_getElem? _ _ 2 _ rfl,
        Family.issues.panel_eq_ok 0 _, rfl⟩
    have hsecond : (Dashboard.ofBands [⟨"a", "A"⟩, ⟨"a", "B"⟩]).Charts [⟨"a", "A"⟩, ⟨"a", "B"⟩]
        ⟨"a", "B"⟩ .issues 1 _ :=
      ⟨1, Family.issues.chart 1 ⟨"a", "B"⟩, rfl, @List.mem_of_getElem? _ _ 5 _ rfl,
        Family.issues.panel_eq_ok 1 _, rfl⟩
    exact ⟨_, _, _, hd, hfirst, hsecond,
      (heq _ _ _ _ _ _ _ _ hfirst hsecond).mpr ⟨rfl, rfl, rfl⟩⟩

end StageMonitor
