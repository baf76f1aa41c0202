import StageMonitor.Json.Value

/-! # Catalogs

A catalog lists the stages that are monitored, in the order in which they are shown.
-/

namespace StageMonitor

open Json

structure Stage where
  id : String
  label : String
  deriving DecidableEq, Repr

structure Catalog where
  stages : List Stage
  deriving DecidableEq, Repr

def Stage.toJson (stage : Stage) : Value :=
  .object [("id", .string stage.id), ("label", .string stage.label)]

namespace Catalog

def toJson (catalog : Catalog) : Value :=
  .object [("stages", .array (catalog.stages.map Stage.toJson))]

def production : Catalog where
  stages :=
    [⟨"tob_maiden", "Maiden"⟩,
     ⟨"tob_bloat", "Bloat"⟩,
     ⟨"tob_nylocas", "Nylocas"⟩,
     ⟨"tob_sotetseg", "Sotetseg"⟩,
     ⟨"tob_xarpus", "Xarpus"⟩,
     ⟨"tob_verzik", "Verzik"⟩,
     ⟨"colosseum_any", "Colosseum"⟩,
     ⟨"inferno_any", "Inferno"⟩,
     ⟨"mokhaiotl_any", "Mokhaiotl"⟩]

end Catalog

end StageMonitor
