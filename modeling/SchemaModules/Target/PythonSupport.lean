import SchemaModules.Text.Split

/-!
# Support modules of a Python package

Two modules that stand at the root of every package: the registry of documents and the base of
value classes.
-/

namespace SchemaModules.Python

/-- Source of the module `_base`. -/
def baseSource : String := Text.unlines [
  "\"\"\"",
  "Base class of the generated value classes.",
  "\"\"\"",
  "",
  "from __future__ import annotations",
  "",
  "from collections.abc import Callable, Mapping",
  "from typing import Any, ClassVar",
  "",
  "from ._registry import SchemaRegistry, get_registry",
  "",
  "",
  "class BaseModel(dict):",
  "    \"\"\"A plain mapping tagged with the definition it was generated from.\"\"\"",
  "",
  "    # Definition name the instance validates against",
  "    _schema_id: ClassVar[str] = \"\"",
  "",
  "    # Add-schema function of that definition",
  "    _add_schema: ClassVar[Callable[[SchemaRegistry | None], None] | None] = None",
  "",
  "    def __init__(self, data: Mapping[str, Any] | None = None, **kwargs: Any) -> None:",
  "        super().__init__(data or \x7b\x7d, **kwargs)",
  "",
  "    def validate(self, registry: SchemaRegistry | None = None) -> None:",
  "        \"\"\"Register the definition's schemas if needed, then validate this instance.",
  "",
  "        Raises:",
  "            jsonschema.ValidationError: If the instance does not match",
  "        \"\"\"",
  "        registry = get_registry(registry)",
  "        if self._add_schema is not None:",
  "            self._add_schema(registry)",
  "        registry.validate(self._schema_id, self.to_dict())",
  "",
  "    def to_dict(self) -> dict[str, Any]:",
  "        return dict(self)",
  "",
  "    def __repr__(self) -> str:",
  "        return f\"\x7btype(self).__name__\x7d(\x7bdict.__repr__(self)\x7d)\""]

/-- Source of the module `_registry`. -/
def registrySource : String := Text.unlines [
  "\"\"\"",
  "Schema registry used by the generated add-schema functions.",
  "",
  "Schemas are stored under their flat definition name; ``$ref`` values inside",
  "them use the ``<name>#`` form and are resolved against this registry.",
  "\"\"\"",
  "",
  "from __future__ import annotations",
  "",
  "from collections.abc import Iterator",
  "from contextlib import contextmanager",
  "from typing import Any",
  "",
  "from jsonschema import Draft7Validator",
  "from referencing import Registry",
  "from referencing.jsonschema import DRAFT7",
  "",
  "",
  "class SchemaRegistry:",
  "    \"\"\"A name-keyed store of schema documents with insert-if-absent semantics.\"\"\"",
  "",
  "    def __init__(self) -> None:",
  "        self._schemas: dict[str, dict[str, Any]] = \x7b\x7d",
  "        self._in_progress: set[str] = set()",
  "",
  "    def __contains__(self, name: object) -> bool:",
  "        return name in self._schemas",
  "",
  "    def __len__(self) -> int:",
  "        return len(self._schemas)",
  "",
  "    def names(self) -> list[str]:",
  "        \"\"\"Registered names, in registration order.\"\"\"",
  "        return list(self._schemas)",
  "",
  "    def get(self, name: str) -> dict[str, Any] | None:",
  "        return self._schemas.get(name)",
  "",
  "    def add_if_absent(self, name: str, schema: dict[str, Any]) -> bool:",
  "        \"\"\"Store ``schema`` under ``name`` unless the name is already taken.",
  "",
  "        Returns:",
  "            True if the schema was stored",
  "        \"\"\"",
  "        if name in self._schemas:",
  "            return False",
  "        self._schemas[name] = schema",
  "        return True",
  "",
  "    @contextmanager",
  "    def registering(self, name: str) -> Iterator[bool]:",
  "        \"\"\"Claim ``name`` for the duration of its registration.",
  "",
  "        Yields False when the name is already registered or its registration",
  "        is already running further up the call chain, so mutually",
  "        referencing definitions terminate.",
  "        \"\"\"",
  "        if name in self._schemas or name in self._in_progress:",
  "            yield False",
  "            return",
  "        self._in_progress.add(name)",
  "        try:",
  "            yield True",
  "        finally:",
  "            self._in_progress.discard(name)",
  "",
  "    def _build_registry(self) -> Registry:",
  "        return Registry().with_resources((name, DRAFT7.create_resource(schema)) " ++
    "for name, schema in self._schemas.items())",
  "",
  "    def validator(self, name: str) -> Draft7Validator:",
  "        \"\"\"Build a validator for the registered definition ``name``.\"\"\"",
  "        if name not in self._schemas:",
  "            raise KeyError(f\"Schema not registered: \x7bname\x7d\")",
  "        return Draft7Validator(\x7b\"$ref\": f\"\x7bname\x7d#\"\x7d, " ++
    "registry=self._build_registry())",
  "",
  "    def validate(self, name: str, instance: Any) -> None:",
  "        \"\"\"Validate ``instance`` against ``name``.",
  "",
  "        Raises:",
  "            jsonschema.ValidationError: If the instance does not match",
  "        \"\"\"",
  "        self.validator(name).validate(instance)",
  "",
  "    def is_valid(self, name: str, instance: Any) -> bool:",
  "        return self.validator(name).is_valid(instance)",
  "",
  "",
  "default_registry = SchemaRegistry()",
  "",
  "",
  "def get_registry(registry: SchemaRegistry | None = None) -> SchemaRegistry:",
  "    \"\"\"Return ``registry``, or the shared default registry when None.\"\"\"",
  "    return default_registry if registry is None else registry",
  "",
  "",
  "def add_schema(name: str, schema: dict[str, Any], registry: SchemaRegistry | " ++
    "None = None) -> bool:",
  "    \"\"\"Register ``schema`` under ``name``; registering a name twice is a no-op.\"\"\"",
  "    return get_registry(registry).add_if_absent(name, schema)"]

/-- File names and sources, in order of the names. -/
def supportFiles : List (String × String) :=
  [("_base.py", baseSource), ("_registry.py", registrySource)]

end SchemaModules.Python
