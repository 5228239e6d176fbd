import SchemaModules.Text.Split

/-!
# Support modules of a TypeScript tree

Two modules that stand at the root of every tree: the registry of documents and the base of value
classes.
-/

namespace SchemaModules.TypeScript

/-- Source of the module `ajv`. -/
def registrySource : String := Text.unlines [
  "import Ajv, \x7b ValidateFunction \x7d from \"ajv\";",
  "",
  "/**",
  " * A name-keyed store of schema documents with insert-if-absent semantics.",
  " * Schemas reference each other through flat `<name>#` keys.",
  " */",
  "export class SchemaRegistry \x7b",
  "  private readonly ajv = new Ajv(\x7b strict: false, validateFormats: false \x7d);",
  "  private readonly registered = new Set<string>();",
  "  private readonly inProgress = new Set<string>();",
  "",
  "  public has(name: string): boolean \x7b",
  "    return this.registered.has(name);",
  "  \x7d",
  "",
  "  /**",
  "   * Claim `name` for registration. Returns false when it is already",
  "   * registered or its registration is running further up the call chain.",
  "   */",
  "  public begin(name: string): boolean \x7b",
  "    if (this.registered.has(name) || this.inProgress.has(name)) return false;",
  "    this.inProgress.add(name);",
  "    return true;",
  "  \x7d",
  "",
  "  public end(name: string): void \x7b",
  "    this.inProgress.delete(name);",
  "  \x7d",
  "",
  "  public addIfAbsent(name: string, schema: object): boolean \x7b",
  "    if (this.registered.has(name)) return false;",
  "    this.ajv.addSchema(schema, name);",
  "    this.registered.add(name);",
  "    return true;",
  "  \x7d",
  "",
  "  public getValidator(name: string): ValidateFunction \x7b",
  "    const validate = this.ajv.getSchema(name);",
  "    if (!validate) throw new Error(`Schema not registered: $\x7bname\x7d`);",
  "    return validate;",
  "  \x7d",
  "",
  "  public validate(name: string, data: unknown): void \x7b",
  "    const validate = this.getValidator(name);",
  "    if (!validate(data)) \x7b",
  "      throw new Error(this.ajv.errorsText(validate.errors));",
  "    \x7d",
  "  \x7d",
  "\x7d",
  "",
  "export const defaultRegistry = new SchemaRegistry();",
  "",
  "export function addSchema(name: string, schema: object, registry: " ++
    "SchemaRegistry = defaultRegistry): boolean \x7b",
  "  return registry.addIfAbsent(name, schema);",
  "\x7d"]

/-- Source of the module `base`. -/
def baseSource : String := Text.unlines [
  "import \x7b defaultRegistry, SchemaRegistry \x7d from \"./ajv\";",
  "",
  "export const SCHEMA_ID = Symbol(\"SCHEMA_ID\");",
  "export const ADD_SCHEMA = Symbol(\"ADD_SCHEMA\");",
  "",
  "export class BaseModel<T> \x7b",
  "  /** @internal */",
  "  protected [SCHEMA_ID]?: string;",
  "",
  "  /** @internal */",
  "  protected [ADD_SCHEMA]?: (registry?: SchemaRegistry) => void;",
  "",
  "  public constructor(data?: T) \x7b",
  "    if (data) Object.assign(this, data);",
  "  \x7d",
  "",
  "  public validate(registry: SchemaRegistry = defaultRegistry): void \x7b",
  "    const id = this[SCHEMA_ID];",
  "    const add = this[ADD_SCHEMA];",
  "    if (!id || !add) return;",
  "    add(registry);",
  "    registry.validate(id, this.toJSON());",
  "  \x7d",
  "",
  "  public toJSON(): T \x7b",
  "    const result: any = \x7b\x7d;",
  "    for (const key of Object.keys(this)) \x7b",
  "      const value = (this as any)[key];",
  "      if (value !== undefined) result[key] = value;",
  "    \x7d",
  "    return result;",
  "  \x7d",
  "\x7d"]

/-- File names and sources, in order of the names. -/
def supportFiles : List (String × String) :=
  [("ajv.ts", registrySource), ("base.ts", baseSource)]

end SchemaModules.TypeScript
