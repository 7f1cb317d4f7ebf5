import CodeReview.Detector.Component
import CodeReview.Detector.Conventions
import CodeReview.Detector.Markup
import CodeReview.Detector.Naming
import CodeReview.Detector.Performance
import CodeReview.Detector.Praise
import CodeReview.Detector.Schema
import CodeReview.Detector.Script
import CodeReview.Detector.Security
import CodeReview.Detector.Structure
import CodeReview.Log

/-! # Running the detectors

    Which detectors look at which language, and what happens when one of
    them fails: the failure is logged and the others go on. -/

namespace CodeReview

namespace Detector

/-- Every detector with the languages it looks at, in the order they
    run. -/
def registered : List (Detector × List Language) :=
  let code : List Language := [.ruby, .javascript, .vue]
  let script : List Language := [.javascript, .vue]
  let markup : List Language := [.javascript, .vue, .template]
  [(fileSize, Language.all), (longLines, Language.all), (longBlocks, code),
   (complexBlocks, code), (complexConditionals, code), (rubyNaming, [.ruby]),
   (scriptClassNaming, script), (csrfDisabled, [.ruby]),
   (sqlInterpolation, [.ruby]), (unpermittedParams, [.ruby]),
   (nPlusOne, [.ruby]), (missingIndexes, [.ruby]),
   (unbatchedWrites, [.ruby]), (modelWithoutValidations, [.ruby]),
   (controllerConventions, [.ruby]), (migrationAppCode, [.ruby]),
   (hardcodedStrings, [.ruby]), (sparseDocumentation, [.ruby]),
   (markupAccessibility, markup), (scriptAccessibility, script),
   (unkeyedLists, [.vue]), (untypedProps, [.vue]), (unscopedStyles, [.vue]),
   (componentStructure, [.vue]), (eventConventions, [.vue]),
   (undocumentedFields, [.graphql]), (nullableIds, [.graphql]),
   (unpaginatedLists, [.graphql]), (inputValidation, [.graphql]),
   (varDeclarations, script), (promiseChains, script),
   (debugStatements, script), (legacyFunctions, script),
   (domAccesses, script), (hookOveruse, script)]

/-- The detectors of a language, in the order they run. -/
def ofLanguage (language : Option Language) : List Detector :=
  match language with
  | none => []
  | some language =>
      (registered.filter fun entry => entry.2.contains language).map (·.1)

/-- The detector with a name. -/
def ofName? (name : String) : Option Detector :=
  (registered.map (·.1)).find? (·.name == name)

end Detector

/-- Parts of a review that are made to fail, each with the text of its
    failure. -/
structure Faults where
  detectors : List (String × String) := []
  blockScan : Option String := none

namespace Faults

/-- What a detector reports, unless it is made to fail. -/
def attempt (faults : Faults) (d : Detector) (s : Subject) :
    Except String (List Finding) :=
  match faults.detectors.lookup d.name with
  | some failure => .error failure
  | none => d.run s

/-- What a praise detector notes, unless it is made to fail. -/
def attemptPraise (faults : Faults) (d : PraiseDetector) (s : Subject) :
    Except String (List String) :=
  match faults.detectors.lookup d.name with
  | some failure => .error failure
  | none => .ok (d.notes s)

end Faults

/-- The findings of one detector, or a warning and none. -/
def detectWith (faults : Faults) (s : Subject) (d : Detector) :
    Logged (List Finding) :=
  match faults.attempt d s with
  | .ok findings => pure findings
  | .error failure => do
      .emit .warning s!"Detector {d.name} failed for {s.path}: {failure}"
      return []

/-- The findings of every detector of the file's language. -/
def detectAll (faults : Faults) (s : Subject) : Logged (List Finding) := do
  let found ← (Detector.ofLanguage s.language).mapM (detectWith faults s)
  return found.flatten

/-- The notes of one praise detector, or a warning and none. -/
def praiseWith (faults : Faults) (s : Subject) (d : PraiseDetector) :
    Logged (List String) :=
  match faults.attemptPraise d s with
  | .ok notes => pure notes
  | .error failure => do
      .emit .warning s!"Positive detector {d.name} failed for {s.path}: {failure}"
      return []

/-- The note on a batch about which nothing else can be noted. -/
def defaultPraise : String := "No security or performance concerns were detected."

/-- Texts without later copies of earlier ones. -/
def firstOccurrences (texts : List String) : List String := texts.eraseDups

/-- The encouraging observations about a batch: file by file, detector by
    detector, each once. -/
def praiseAll (faults : Faults) (batch : List Subject) : Logged (List String) := do
  let notes ← batch.mapM fun s => do
    let notes ← PraiseDetector.all.mapM (praiseWith faults s)
    return notes.flatten
  let distinct := firstOccurrences notes.flatten
  return if distinct.isEmpty then [defaultPraise] else distinct

end CodeReview
