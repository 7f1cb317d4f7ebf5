/-! # Languages

    The kinds of source that are reviewed, and the file name extensions
    that announce them. -/

namespace CodeReview

/-- A kind of source that is reviewed. -/
inductive Language where
  | ruby
  | javascript
  | vue
  | graphql
  | template
deriving DecidableEq, Repr

namespace Language

/-- Every language, in the order of the registry. -/
def all : List Language := [.ruby, .javascript, .vue, .graphql, .template]

/-- The tag of a language. -/
def tag : Language → String
  | .ruby => "ruby"
  | .javascript => "javascript"
  | .vue => "vue"
  | .graphql => "graphql"
  | .template => "template"

/-- The language with a tag. -/
def ofTag? (s : String) : Option Language := all.find? (·.tag == s)

/-- The extensions, each with its language, in the order they are
    listed. -/
def extensions : List (String × Language) :=
  [(".rb", .ruby), (".rake", .ruby), (".gemspec", .ruby),
   (".js", .javascript), (".jsx", .javascript), (".mjs", .javascript),
   (".cjs", .javascript), (".vue", .vue), (".graphql", .graphql),
   (".gql", .graphql), (".erb", .template), (".haml", .template),
   (".slim", .template)]

/-- The language that an extension announces. -/
def ofExtension? (extension : String) : Option Language :=
  extensions.lookup extension

/-- Reading a tag gives the language it was written for. -/
theorem ofTag?_tag (language : Language) :
    ofTag? language.tag = some language := by
  cases language <;> decide

end Language

end CodeReview
