import ShapeModel.Selector
import ShapeModel.Trait.Kind

/-!
# Where traits may be applied

The selector of every prelude kind.
-/

namespace ShapeModel.Trait.Kind

set_option autoImplicit false

def serviceKinds : Selector :=
  .or [.kind .service, .kind .operation, .kind .resource]

def selector : Kind → Selector
  | .documentation | .deprecated | .tags | .title | .internal => .all
  | .required | .enumValue => .kind .member
  | .sensitive => .not serviceKinds
  | .pattern => .orTarget (.kind (.simple .string))
  | .length =>
    .orTarget (.or
      [.kind (.collection .list), .kind (.collection .set), .kind .map,
       .kind (.simple .string), .kind (.simple .blob)])
  | .range => .orTarget .number
  | .error | .input | .output | .unitType => .kind (.aggregate .struct)
  | .readonly | .idempotent => .kind .operation
  | .default => .orTarget (.or [.simple, .kind (.collection .list), .kind .map])
  | .definition => .not (.or [serviceKinds, .kind .member])
  | .timestampFormat => .orTarget (.kind (.simple .timestamp))
  | .paginated => .or [.kind .operation, .kind .service]
  | .uniqueItems => .orTarget (.kind (.collection .list))

end ShapeModel.Trait.Kind
