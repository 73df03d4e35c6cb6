import QueryCompiler.Query

/-!
# Equality of expressions and queries

Two trees are the same when they agree everywhere and their floats are equal as numbers:
not-a-number anywhere makes a tree differ from itself, and the two zeros are not told apart.
-/

namespace QueryCompiler

def Param.same (p q : Param) : Bool :=
  p.value.same q.value && p.index == q.index && p.type == q.type && p.splice == q.splice

mutual

def Expr.same : Expr → Expr → Bool
  | .literal v, .literal w => v.same w
  | .param p, .param q => p.same q
  | .field f, .field g => f == g
  | .binding r, .binding s => r == s
  | .parentBinding r, .parentBinding s => r == s
  | .operator op es, .operator op' es' => op == op' && sameExprs es es'
  | .aggregate k es d f, .aggregate k' es' d' f' =>
    k == k' && sameExprs es es' && d == d' && sameOption f f'
  | .fragment t ps as, .fragment t' ps' as' => t == t' && ps == ps' && sameArgs as as'
  | .cast e t r, .cast e' t' r' => e.same e' && t == t' && r == r'
  | .subquery k q, .subquery k' q' => k == k' && q.same q'
  | .values t, .values t' => t.same t'
  | .projection k p, .projection k' p' => k == k' && p.same p'
  | .merge l r, .merge l' r' => l.same l' && r.same r'
  | .aliased e n, .aliased e' n' => e.same e' && n == n'
  | .aliasRef n, .aliasRef n' => n == n'
  | .jsonPath e p, .jsonPath e' p' => e.same e' && samePath p p'
  | .interval e u, .interval e' u' => e.same e' && u == u'
  | .tuple es, .tuple es' => sameExprs es es'
  | .mapping es, .mapping es' => sameMapping es es'
  | _, _ => false

def sameExprs : List Expr → List Expr → Bool
  | [], [] => true
  | e :: es, e' :: es' => e.same e' && sameExprs es es'
  | _, _ => false

def sameOption : Option Expr → Option Expr → Bool
  | none, none => true
  | some e, some e' => e.same e'
  | _, _ => false

def sameArgs : List FragmentArg → List FragmentArg → Bool
  | [], [] => true
  | .mk r e :: as, .mk r' e' :: as' => r == r' && e.same e' && sameArgs as as'
  | _, _ => false

def samePath : List PathStep → List PathStep → Bool
  | [], [] => true
  | .key k :: p, .key k' :: p' => k == k' && samePath p p'
  | .index i :: p, .index i' :: p' => i == i' && samePath p p'
  | .computed e :: p, .computed e' :: p' => e.same e' && samePath p p'
  | _, _ => false

def sameMapping : List (String × Expr) → List (String × Expr) → Bool
  | [], [] => true
  | (k, e) :: es, (k', e') :: es' => k == k' && e.same e' && sameMapping es es'
  | _, _ => false

def Query.same : Query → Query → Bool
  | .mk s js ws sel gs hs os l o d, .mk s' js' ws' sel' gs' hs' os' l' o' d' =>
    s.same s' && sameJoins js js' && sameExprs ws ws' && sameOption sel sel' &&
      sameExprs gs gs' && sameExprs hs hs' && sameTerms os os' && sameOption l l' &&
      sameOption o o' && d == d'

def Source.same : Source → Source → Bool
  | .mk o n, .mk o' n' => o.same o' && n == n'

def Origin.same : Origin → Origin → Bool
  | .schema n, .schema n' => n == n'
  | .table n, .table n' => n == n'
  | .values t, .values t' => t.same t'
  | .subquery q, .subquery q' => q.same q'
  | .fragment e, .fragment e' => e.same e'
  | _, _ => false

def sameJoins : List Join → List Join → Bool
  | [], [] => true
  | .mk k s on :: js, .mk k' s' on' :: js' =>
    k == k' && s.same s' && sameOption on on' && sameJoins js js'
  | _, _ => false

def sameTerms : List OrderTerm → List OrderTerm → Bool
  | [], [] => true
  | .mk e d :: ts, .mk e' d' :: ts' => e.same e' && d == d' && sameTerms ts ts'
  | _, _ => false

end

end QueryCompiler
