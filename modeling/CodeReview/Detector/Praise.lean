import CodeReview.Detector.Component
import CodeReview.Detector.Performance

/-! # Praise

    Encouraging observations about a file.  They are no findings and are
    only made of a batch without security and performance findings. -/

namespace CodeReview

/-- A named rule that makes encouraging observations about a file. -/
structure PraiseDetector where
  name : String
  notes : Subject → List String

namespace PraiseDetector

open Pattern Detector

/-- The head of a service class. -/
def serviceClass : Pattern :=
  text "class" ++ someBlanks ++ many wordChar ++ text "Service" ++ wordEdge

/-- A list of permitted request parameters. -/
def strongParameters : Pattern :=
  text "params.require(" ++ many (noneOf "\n") ++ text ").permit("

/-- The attributes of a scoped style section. -/
def scopedStyle : Pattern := wordEdge ++ text "scoped" ++ wordEdge

/-- A note if a condition holds. -/
def noteIf (condition : Bool) (note : String) : List String :=
  if condition then [note] else []

/-- Service objects. -/
def serviceObjects : PraiseDetector where
  name := "positive_service_objects"
  notes := fun s =>
    noteIf
      (Text.occurs "service".toList (Text.lower s.path).toList
        && serviceClass.occursIn s.content)
      s!"Great use of service objects to encapsulate business logic in {s.name}!"

/-- Permitted request parameters. -/
def strongParameterUse : PraiseDetector where
  name := "positive_strong_parameters"
  notes := fun s =>
    noteIf (s.language == some .ruby && strongParameters.occursIn s.content)
      s!"Nice job using strong parameters for security in {s.name}!"

/-- Associations loaded in advance. -/
def eagerLoadingUse : PraiseDetector where
  name := "positive_eager_loading"
  notes := fun s =>
    noteIf (s.language == some .ruby && eagerLoading.occursIn s.content)
      s!"Good performance optimization with eager loading in {s.name}!"

/-- Whether a list has members and all of them pass a test. -/
def someAndAll {α : Type} (xs : List α) (test : α → Bool) : Bool :=
  !xs.isEmpty && xs.all test

/-- Scoped styles and stable keys. -/
def componentHygiene : PraiseDetector where
  name := "positive_component_hygiene"
  notes := fun s =>
    if s.language != some .vue then []
    else
      let styles := (styleTag.findAll s.content).map (·.group 1)
      let lists := (tags s).filter fun tag => listDirective.occursIn tag.attrs
      noteIf (someAndAll styles scopedStyle.occursIn)
          s!"Component styles are nicely scoped in {s.name}!"
        ++ noteIf (someAndAll lists fun tag => keyBinding.occursIn tag.attrs)
          s!"List rendering uses stable keys in {s.name}!"

/-- Tests. -/
def testCoverage : PraiseDetector where
  name := "positive_tests"
  notes := fun s => noteIf s.isTest "Excellent test coverage - keep it up!"

/-- The rules, in the order they are asked. -/
def all : List PraiseDetector :=
  [serviceObjects, strongParameterUse, eagerLoadingUse, componentHygiene,
   testCoverage]

end PraiseDetector

end CodeReview
