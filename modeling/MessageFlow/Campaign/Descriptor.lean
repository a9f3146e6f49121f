import MessageFlow.Schema.Record

/-! Descriptors: how the builder of campaigns describes one step, a message from a template. -/

namespace MessageFlow
namespace Campaign

/-- The template of a step, with what it is filled in with. -/
structure Template where
  id : Option Json
  media : Option Json
  mapping : Option Json
  productSets : Option Json
  carousel : Option Json
  options : List Json
  rest : Json.Object

def Template.record : OpenRecord Template where
  name := "TemplateDescriptorData"
  schema :=
    (Schema.build mk)
      |>.field (.omitted "templateId" .json) id
      |>.field (.omitted "media" .json) media
      |>.field (.omitted "dynamic_mapping" .json) mapping
      |>.field (.omitted "product_sets" .json) productSets
      |>.field (.omitted "carouselMedia" .json) carousel
      |>.field (.withDefault "template_options" (.list .json) []) options
  extra := rest

/-- One step of a campaign. -/
structure Descriptor where
  name : Option String
  broadcast : Option Json
  delay : Option Json
  template : Template

def Descriptor.record : Record Descriptor where
  name := "TemplateDescriptor"
  schema :=
    (Schema.build mk)
      |>.field (.optional "messageName" .text) name
      |>.field (.optional "broadcastId" .json) broadcast
      |>.field (.optional "delay" .json) delay
      |>.field (.required "data" Template.record.codec) template

end Campaign
end MessageFlow
