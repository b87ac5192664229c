import DocRun.Config.Basic

namespace DocRun

def Path.sameAll : List Path → List Path → Bool
  | [], [] => true
  | p :: ps, q :: qs => p.same q && sameAll ps qs
  | _, _ => false

-- Paths are compared by what they mean, everything else exactly.
def FieldValue.same : FieldValue → FieldValue → Bool
  | path p, path q => p.same q
  | pathOrNone (some p), pathOrNone (some q) => p.same q
  | paths ps, paths qs => Path.sameAll ps qs
  | v, w => v = w

def Config.same (c d : Config) : Bool :=
  c.initialized = d.initialized &&
    Field.all.all fun field => (c.value field).same (d.value field)

end DocRun
